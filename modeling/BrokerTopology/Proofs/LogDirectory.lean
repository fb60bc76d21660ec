/-
  BrokerTopology.Proofs.LogDirectory — the directory of a log, and what
  becomes of it.

  A log needs three names in its directory: its own, the one that a
  rewrite goes to, and that of the lock file.  A directory can host it if
  nothing but files stands under them, no two of them the same.

  Then every call on the disk does what it says, and to one name only:
  `Becomes` says what stands under that name afterwards, and that what
  stands under the others is what stood there before.

  Main statements:
    * `Disk.Hosts.locate` — where the three paths lead.
    * `Disk.Hosts.setFile`, `Disk.Hosts.openFile`, `Disk.Hosts.renameFile` —
      what becomes of the directory.
-/
import BrokerTopology.Log.File
import BrokerTopology.Proofs.DiskPaths

namespace BrokerTopology

/-! ## §1. The names and paths of a log -/

namespace JournalFile

/-- The name of the file that a rewrite goes to. -/
def temporaryName : String := fileName ++ ".tmp"

/-- The names that a log needs in its directory. -/
def names : List String := [fileName, temporaryName, JournalLock.fileName]

theorem fileName_mem_names : fileName ∈ names := by simp [names]

theorem temporaryName_mem_names : temporaryName ∈ names := by simp [names]

theorem lockName_mem_names : JournalLock.fileName ∈ names := by simp [names]

theorem isName_of_mem_names {name : String} (h : name ∈ names) : Path.IsName name := by
  rw [names, List.mem_cons, List.mem_cons, List.mem_singleton] at h
  rcases h with rfl | rfl | rfl
  all_goals constructor <;> decide

/-- The name of the file that a rewrite goes to is the longest. -/
theorem size_le_of_mem_names {name : String} (h : name ∈ names) :
    name.utf8ByteSize ≤ temporaryName.utf8ByteSize := by
  rw [names, List.mem_cons, List.mem_cons, List.mem_singleton] at h
  rcases h with rfl | rfl | rfl
  all_goals decide

end JournalFile

namespace Disk

theorem checkPath_iff {path : String} :
    checkPath path = .ok () ↔
      '\x00' ∉ path.toList ∧ path ≠ "" ∧ path.utf8ByteSize < pathBytesBound := by
  unfold checkPath
  constructor
  · intro h
    split at h
    next => cases h
    next hnul =>
      split at h
      next => cases h
      next hempty =>
        split at h
        next => cases h
        next hsize =>
          exact ⟨by simpa using hnul, by simpa using hempty, Nat.not_le.1 hsize⟩
  · rintro ⟨hnul, hempty, hsize⟩
    rw [if_neg (by simpa using hnul), if_neg (by simpa using hempty), if_neg (Nat.not_le.2 hsize)]

/-- The part that the paths of a log begin with, if the longest of them can be walked. -/
theorem front_of_checkPath {path : String}
    (h : checkPath (JournalFile.temporaryPathIn path) = .ok ()) :
    '\x00' ∉ (path ++ Path.between path).toList ∧
      (path ++ Path.between path).utf8ByteSize + JournalFile.temporaryName.utf8ByteSize <
        pathBytesBound := by
  have hlongest := JournalFile.isName_of_mem_names JournalFile.temporaryName_mem_names
  have hpath : JournalFile.temporaryPathIn path =
      path ++ Path.between path ++ JournalFile.temporaryName := Path.join_eq path hlongest
  obtain ⟨hnul, -, hshort⟩ := checkPath_iff.1 h
  rw [hpath, String.toList_append, List.mem_append, not_or] at hnul
  rw [hpath, String.utf8ByteSize_append] at hshort
  exact ⟨hnul.1, hshort⟩

/-- Then the others can be walked too. -/
theorem checkPath_join {path name : String}
    (h : checkPath (JournalFile.temporaryPathIn path) = .ok ())
    (hname : name ∈ JournalFile.names) :
    checkPath (Path.join path name) = .ok () := by
  have hisName := JournalFile.isName_of_mem_names hname
  have hsize := JournalFile.size_le_of_mem_names hname
  obtain ⟨hnul, hshort⟩ := front_of_checkPath h
  rw [Path.join_eq path hisName, checkPath_iff]
  refine ⟨?_, ?_, ?_⟩
  · rw [String.toList_append, List.mem_append, not_or]
    exact ⟨hnul, hisName.no_nul⟩
  · intro hempty
    exact hisName.ne_empty (String.append_eq_empty_iff.1 hempty).2
  · rw [String.utf8ByteSize_append]
    omega

/-- And so can the path of the directory, if there is anything to walk. -/
theorem checkPath_directory {path : String}
    (h : checkPath (JournalFile.temporaryPathIn path) = .ok ()) :
    path = "" ∨ checkPath path = .ok () := by
  by_cases hempty : path = ""
  · exact Or.inl hempty
  · obtain ⟨hnul, hshort⟩ := front_of_checkPath h
    rw [String.toList_append, List.mem_append, not_or] at hnul
    rw [String.utf8ByteSize_append] at hshort
    exact Or.inr (checkPath_iff.2 ⟨hnul.1, hempty, by omega⟩)

/-! ## §2. The files under the names -/

/-- The file that stands under a name of a directory, and its number. -/
def fileUnder (d : Disk) (number : Nat) (name : String) : Option (Nat × DiskFile) :=
  match d.entryAt? (.under number name) with
  | some (.file id) => some (id, d.file id)
  | _ => none

variable {d after : Disk} {path name : String} {number id : Nat} {file : DiskFile}

theorem fileUnder_eq_some :
    d.fileUnder number name = some (id, file) ↔
      d.entryAt? (.under number name) = some (.file id) ∧ d.file id = file := by
  unfold fileUnder
  split
  next other hentry =>
    rw [hentry]
    constructor
    · intro h
      injection h with h
      injection h with hid hfile
      subst hid
      exact ⟨rfl, hfile⟩
    · rintro ⟨hid, rfl⟩
      cases hid
      rfl
  next hother =>
    constructor
    · intro h
      cases h
    · rintro ⟨hentry, -⟩
      exact absurd hentry (hother id)

theorem fileUnder_of_file (h : d.entryAt? (.under number name) = some (.file id)) :
    d.fileUnder number name = some (id, d.file id) :=
  fileUnder_eq_some.2 ⟨h, rfl⟩

theorem fileUnder_of_none (h : d.entryAt? (.under number name) = none) :
    d.fileUnder number name = none := by
  rw [fileUnder, h]

/-- What stands under a name, and the file it is, decide what is found there. -/
theorem fileUnder_congr
    (hentry : after.entryAt? (.under number name) = d.entryAt? (.under number name))
    (hfile : ∀ id, d.entryAt? (.under number name) = some (.file id) →
      after.file id = d.file id) :
    after.fileUnder number name = d.fileUnder number name := by
  unfold fileUnder
  rw [hentry]
  split
  next id hfound => rw [hfile id hfound]
  next => rfl

/-- A directory that can host a log: its path leads to it, and under the names of the log nothing
stands but files, each under one of them only. -/
structure Hosts (d : Disk) (path : String) (number : Nat) : Prop where
  checked : checkPath (JournalFile.temporaryPathIn path) = .ok ()
  leads : d.Leads path number
  noDirectory : ∀ name ∈ JournalFile.names, ∀ other,
    d.entryAt? (.under number name) ≠ some (.directory other)
  numbered : ∀ name ∈ JournalFile.names, ∀ id,
    d.entryAt? (.under number name) = some (.file id) → id < d.nextNumber
  apart : ∀ name ∈ JournalFile.names, ∀ name' ∈ JournalFile.names, ∀ id,
    d.entryAt? (.under number name) = some (.file id) →
    d.entryAt? (.under number name') = some (.file id) → name = name'

namespace Hosts

/-- Where the paths of the log lead. -/
theorem locate (h : d.Hosts path number) (hname : name ∈ JournalFile.names) :
    d.locate (Path.join path name) = .ok (.under number name) :=
  h.leads.locate_join (JournalFile.isName_of_mem_names hname) (checkPath_join h.checked hname)

theorem makeDirectories (h : d.Hosts path number) : d.makeDirectories path = (.ok (), d) :=
  h.leads.makeDirectories (checkPath_directory h.checked)

/-- A name of the log is free, or a file stands under it. -/
theorem entry_cases (h : d.Hosts path number) (hname : name ∈ JournalFile.names) :
    d.entryAt? (.under number name) = none ∨
      ∃ id, d.entryAt? (.under number name) = some (.file id) := by
  cases hentry : d.entryAt? (.under number name) with
  | none => exact Or.inl rfl
  | some entry =>
    cases entry with
    | directory other => exact absurd hentry (h.noDirectory name hname other)
    | file id => exact Or.inr ⟨id, rfl⟩

theorem fileAt_eq (h : d.Hosts path number) (hname : name ∈ JournalFile.names) :
    d.fileAt (Path.join path name) =
      match d.fileUnder number name with
      | none => .error .notFound
      | some (id, _) => .ok id := by
  have hslash := Path.endsInSlash_join path (JournalFile.isName_of_mem_names hname)
  rw [fileAt, h.locate hname]
  simp only [Bind.bind, Except.bind]
  rcases h.entry_cases hname with hentry | ⟨id, hentry⟩
  · rw [fileUnder_of_none hentry, hentry]
  · rw [fileUnder_of_file hentry, hentry]
    simp only [hslash]
    rfl

theorem read_eq (h : d.Hosts path number) (hname : name ∈ JournalFile.names) :
    d.read (Path.join path name) =
      match d.fileUnder number name with
      | none => .error .notFound
      | some (_, file) => .ok file.contents := by
  rw [Disk.read, h.fileAt_eq hname]
  rcases h.entry_cases hname with hentry | ⟨id, hentry⟩
  · rw [fileUnder_of_none hentry]
    rfl
  · rw [fileUnder_of_file hentry]
    rfl

/-- A change to what stands under one name of the log leaves a directory that can host it, if a file
that stands there now stands under no other name. -/
theorem change (h : d.Hosts path number) (name : String) (found : Option Nat)
    (htree : KeepsTree d after) (hnext : d.nextNumber ≤ after.nextNumber)
    (hfound : after.entryAt? (.under number name) = found.map .file)
    (hnumber : ∀ id, found = some id → id < after.nextNumber)
    (halone : ∀ id, found = some id → ∀ other ∈ JournalFile.names, other ≠ name →
      d.entryAt? (.under number other) ≠ some (.file id))
    (hothers : ∀ other ∈ JournalFile.names, other ≠ name →
      after.entryAt? (.under number other) = d.entryAt? (.under number other)) :
    after.Hosts path number := by
  have hhere : ∀ {id}, after.entryAt? (.under number name) = some (.file id) →
      found = some id := by
    intro id hentry
    rw [hfound] at hentry
    obtain ⟨id', hid', heq⟩ := Option.map_eq_some_iff.1 hentry
    injection heq with heq
    rw [hid', heq]
  -- what is asked of every name is checked at the one that changed and at the others
  refine ⟨h.checked, h.leads.of_keepsTree htree, ?_, ?_, ?_⟩
  · intro other hother directory
    by_cases hsame : other = name
    · rw [hsame, hfound]
      cases found with
      | none =>
        intro heq
        cases heq
      | some id =>
        intro heq
        cases heq
    · rw [hothers other hother hsame]
      exact h.noDirectory other hother directory
  · intro other hother id hentry
    by_cases hsame : other = name
    · rw [hsame] at hentry
      exact hnumber id (hhere hentry)
    · rw [hothers other hother hsame] at hentry
      exact Nat.lt_of_lt_of_le (h.numbered other hother id hentry) hnext
  · intro first hfirst second hsecond id hentry hentry'
    by_cases hname : first = name
    · by_cases hname' : second = name
      · rw [hname, hname']
      · rw [hname] at hentry
        rw [hothers second hsecond hname'] at hentry'
        exact absurd hentry' (halone id (hhere hentry) second hsecond hname')
    · rw [hothers first hfirst hname] at hentry
      by_cases hname' : second = name
      · rw [hname'] at hentry'
        exact absurd hentry (halone id (hhere hentry') first hfirst hname)
      · rw [hothers second hsecond hname'] at hentry'
        exact h.apart first hfirst second hsecond id hentry hentry'

end Hosts

/-! ## §3. What becomes of the directory -/

theorem file_setFile (d : Disk) (id other : Nat) (file : DiskFile) :
    (d.setFile id file).file other = if id = other then file else d.file other := by
  by_cases h : id = other <;> simp [Disk.file, setFile, Std.ExtTreeMap.getElem?_insert, h]

theorem directory_setDirectory (d : Disk) (number other : Nat) (directory : Directory) :
    (d.setDirectory number directory).directory other =
      if number = other then directory else d.directory other := by
  by_cases h : number = other <;>
    simp [Disk.directory, setDirectory, Std.ExtTreeMap.getElem?_insert, h]

theorem entryAt?_clearEntry (d : Disk) (number : Nat) (name : String) (place : Place) :
    (d.clearEntry number name).entryAt? place =
      if place = .under number name then none else d.entryAt? place := by
  cases place with
  | inside other => simp [entryAt?]
  | under other otherName =>
    by_cases hnumber : number = other
    · subst hnumber
      by_cases hname : name = otherName
      · subst hname
        simp [entryAt?, clearEntry, directory_setDirectory]
      · have hname' : otherName ≠ name := fun h => hname h.symm
        simp [entryAt?, clearEntry, directory_setDirectory, Std.ExtTreeMap.getElem?_erase, hname,
          hname']
    · have hnumber' : other ≠ number := fun h => hnumber h.symm
      simp [entryAt?, clearEntry, directory_setDirectory, hnumber, hnumber']

/-- Putting a file under a name where no directory stands keeps all directories. -/
theorem keepsTree_setEntry
    (h : ∀ other, d.entryAt? (.under number name) ≠ some (.directory other)) (id : Nat) :
    KeepsTree d (d.setEntry number name (.file id)) where
  workingDirectory_eq := rfl
  parent_eq other := by
    rw [setEntry, directory_setDirectory]
    split
    next hsame => rw [hsame]
    next => rfl
  directory_eq place other hentry := by
    rw [entryAt?_setEntry, if_neg]
    · exact hentry
    · rintro rfl
      exact h other hentry

/-- So does clearing it. -/
theorem keepsTree_clearEntry
    (h : ∀ other, d.entryAt? (.under number name) ≠ some (.directory other)) :
    KeepsTree d (d.clearEntry number name) where
  workingDirectory_eq := rfl
  parent_eq other := by
    rw [clearEntry, directory_setDirectory]
    split
    next hsame => rw [hsame]
    next => rfl
  directory_eq place other hentry := by
    rw [entryAt?_clearEntry, if_neg]
    · exact hentry
    · rintro rfl
      exact h other hentry

/-- What stands under one name of the log afterwards; under the others stands what stood there. -/
structure Becomes (d after : Disk) (path : String) (number : Nat) (name : String)
    (found : Option (Nat × DiskFile)) : Prop where
  hosts : after.Hosts path number
  found_eq : after.fileUnder number name = found
  others : ∀ other ∈ JournalFile.names, other ≠ name →
    after.fileUnder number other = d.fileUnder number other

/-- Of two changes to a name the last one counts. -/
theorem Becomes.trans {later : Disk} {found found' : Option (Nat × DiskFile)}
    (h : Becomes d after path number name found)
    (h' : Becomes after later path number name found') :
    Becomes d later path number name found' where
  hosts := h'.hosts
  found_eq := h'.found_eq
  others other hother hne := (h'.others other hother hne).trans (h.others other hother hne)

theorem under_ne {other : String} (h : other ≠ name) :
    Place.under number other ≠ .under number name := by
  intro heq
  injection heq with _ heq
  exact h heq

namespace Hosts

/-- Changing a file. -/
theorem setFile (h : d.Hosts path number) (hname : name ∈ JournalFile.names)
    (hfound : d.fileUnder number name = some (id, file)) (file' : DiskFile) :
    Becomes d (d.setFile id file') path number name (some (id, file')) := by
  obtain ⟨hentry, -⟩ := fileUnder_eq_some.1 hfound
  have halone : ∀ other ∈ JournalFile.names, other ≠ name →
      d.entryAt? (.under number other) ≠ some (.file id) :=
    fun other hother hne hentry' => hne (h.apart other hother name hname id hentry' hentry)
  have hentries : ∀ place, (d.setFile id file').entryAt? place = d.entryAt? place := by
    intro place
    cases place with
    | inside => rfl
    | under => rfl
  refine ⟨?_, ?_, ?_⟩
  · refine h.change name (some id) ⟨rfl, fun _ => rfl, ?_⟩ (Nat.le_refl _) ?_ ?_ ?_ ?_
    · intro place other hplace
      rw [hentries, hplace]
    · rw [hentries, hentry]
      rfl
    · rintro _ ⟨⟩
      exact h.numbered name hname id hentry
    · rintro _ ⟨⟩
      exact halone
    · intro other _ _
      rw [hentries]
  · rw [fileUnder_eq_some, hentries, file_setFile, if_pos rfl]
    exact ⟨hentry, rfl⟩
  · intro other hother hne
    refine fileUnder_congr (hentries _) ?_
    intro id' hentry'
    rw [file_setFile, if_neg]
    rintro rfl
    exact halone other hother hne hentry'

/-- Clearing a name. -/
theorem clearEntry (h : d.Hosts path number) (hname : name ∈ JournalFile.names) :
    Becomes d (d.clearEntry number name) path number name none := by
  have hhere : (d.clearEntry number name).entryAt? (.under number name) = none := by
    rw [entryAt?_clearEntry, if_pos rfl]
  have hothers : ∀ other, other ≠ name →
      (d.clearEntry number name).entryAt? (.under number other) =
        d.entryAt? (.under number other) := by
    intro other hne
    rw [entryAt?_clearEntry, if_neg (under_ne hne)]
  refine ⟨?_, fileUnder_of_none hhere, ?_⟩
  · exact h.change name none (keepsTree_clearEntry (h.noDirectory name hname)) (Nat.le_refl _)
      hhere nofun nofun fun other _ => hothers other
  · exact fun other _ hne => fileUnder_congr (hothers other hne) fun _ _ => rfl

/-- Putting a file under a name, if it stands under no other. -/
theorem setEntry (h : d.Hosts path number) (hname : name ∈ JournalFile.names)
    (hnumber : id < d.nextNumber) (halone : ∀ other ∈ JournalFile.names, other ≠ name →
      d.entryAt? (.under number other) ≠ some (.file id)) :
    Becomes d (d.setEntry number name (.file id)) path number name (some (id, d.file id)) := by
  have hhere : (d.setEntry number name (.file id)).entryAt? (.under number name) =
      some (.file id) := by
    rw [entryAt?_setEntry, if_pos rfl]
  have hothers : ∀ other, other ≠ name →
      (d.setEntry number name (.file id)).entryAt? (.under number other) =
        d.entryAt? (.under number other) := by
    intro other hne
    rw [entryAt?_setEntry, if_neg (under_ne hne)]
  refine ⟨?_, fileUnder_of_file hhere, ?_⟩
  · refine h.change name (some id) (keepsTree_setEntry (h.noDirectory name hname) id)
      (Nat.le_refl _) hhere ?_ ?_ fun other _ => hothers other
    · rintro _ ⟨⟩
      exact hnumber
    · rintro _ ⟨⟩
      exact halone
  · exact fun other _ hne => fileUnder_congr (hothers other hne) fun _ _ => rfl

/-- Creating a file. -/
theorem createFile (h : d.Hosts path number) (hname : name ∈ JournalFile.names) :
    Becomes d (d.createFile number name).2 path number name (some (d.nextNumber, {})) := by
  have hentries : ∀ place, (d.createFile number name).2.entryAt? place =
      (d.setEntry number name (.file d.nextNumber)).entryAt? place := by
    intro place
    cases place with
    | inside => rfl
    | under => rfl
  have hfiles : ∀ other, (d.createFile number name).2.file other =
      if d.nextNumber = other then {} else d.file other := by
    intro other
    by_cases hother : d.nextNumber = other <;>
      simp [Disk.createFile, Disk.file, Std.ExtTreeMap.getElem?_insert, hother]
  have hhere : (d.createFile number name).2.entryAt? (.under number name) =
      some (.file d.nextNumber) := by
    rw [hentries, entryAt?_setEntry, if_pos rfl]
  have hothers : ∀ other, other ≠ name →
      (d.createFile number name).2.entryAt? (.under number other) =
        d.entryAt? (.under number other) := by
    intro other hne
    rw [hentries, entryAt?_setEntry, if_neg (under_ne hne)]
  have htree := keepsTree_setEntry (h.noDirectory name hname) d.nextNumber
  refine ⟨?_, ?_, ?_⟩
  · refine h.change name (some d.nextNumber) ⟨rfl, htree.parent_eq, ?_⟩ (Nat.le_succ _) hhere
      ?_ ?_ fun other _ => hothers other
    · intro place other hplace
      rw [hentries]
      exact htree.directory_eq place other hplace
    · rintro _ ⟨⟩
      exact Nat.lt_succ_self _
    · -- the number is new, so no file under another name has it
      rintro _ ⟨⟩ other hother - hentry
      exact Nat.lt_irrefl _ (h.numbered other hother _ hentry)
  · rw [fileUnder_eq_some, hfiles, if_pos rfl]
    exact ⟨hhere, rfl⟩
  · intro other hother hne
    refine fileUnder_congr (hothers other hne) ?_
    intro id hentry
    rw [hfiles, if_neg]
    rintro rfl
    exact Nat.lt_irrefl _ (h.numbered other hother _ hentry)

/-- Nothing becomes of what is left alone. -/
theorem same (h : d.Hosts path number) (name : String) :
    Becomes d d path number name (d.fileUnder number name) :=
  ⟨h, rfl, fun _ _ _ => rfl⟩

theorem openFile_eq (h : d.Hosts path number) (hname : name ∈ JournalFile.names) :
    d.openFile (Path.join path name) =
      match d.fileUnder number name with
      | some (id, _) => .ok (id, d)
      | none => .ok (d.createFile number name) := by
  have hisName := JournalFile.isName_of_mem_names hname
  have hnames : namesFile (Path.join path name) = true := by
    rw [namesFile, Path.endsInEntry_join path hisName, Path.endsInSlash_join path hisName]
    rfl
  rw [Disk.openFile, h.locate hname]
  simp only [Bind.bind, Except.bind]
  rw [hnames]
  rcases h.entry_cases hname with hentry | ⟨id, hentry⟩
  · rw [fileUnder_of_none hentry, hentry]
    rfl
  · rw [fileUnder_of_file hentry, hentry]
    rfl

/-- Opening a file, which is created if it is not there. -/
theorem openFile (h : d.Hosts path number) (hname : name ∈ JournalFile.names) :
    ∃ id after, d.openFile (Path.join path name) = .ok (id, after) ∧
      Becomes d after path number name
        (some (id, ((d.fileUnder number name).map Prod.snd).getD {})) := by
  have hopen := h.openFile_eq hname
  have hsame := h.same name
  cases hfound : d.fileUnder number name with
  | none =>
    rw [hfound] at hopen
    exact ⟨_, _, hopen, h.createFile hname⟩
  | some found =>
    rw [hfound] at hopen hsame
    exact ⟨_, _, hopen, hsame⟩

/-- Moving a file over another. -/
theorem renameFile {source target : String} (h : d.Hosts path number)
    (hsource : source ∈ JournalFile.names) (htarget : target ∈ JournalFile.names)
    (hfound : d.fileUnder number source = some (id, file)) :
    ∃ after, d.renameFile (Path.join path source) (Path.join path target) = .ok after ∧
      after.Hosts path number ∧ after.fileUnder number target = some (id, file) ∧
      ∀ other ∈ JournalFile.names, other ≠ source → other ≠ target →
        after.fileUnder number other = d.fileUnder number other := by
  obtain ⟨hentry, rfl⟩ := fileUnder_eq_some.1 hfound
  have hrename : d.renameFile (Path.join path source) (Path.join path target) =
      .ok ((d.clearEntry number source).setEntry number target (.file id)) := by
    rw [Disk.renameFile, h.locate hsource, h.locate htarget]
    simp only [Bind.bind, Except.bind]
    rw [hentry]
    rcases h.entry_cases htarget with hfree | ⟨id', hother⟩
    · rw [hfree]
    · rw [hother]
  -- the old name is cleared before the new one is set, so the file is never under both
  have hcleared := h.clearEntry hsource
  have hmoved : Becomes (d.clearEntry number source)
      ((d.clearEntry number source).setEntry number target (.file id)) path number target
      (some (id, d.file id)) := by
    refine hcleared.hosts.setEntry htarget (h.numbered source hsource id hentry) ?_
    intro other hother _ hentry'
    rw [entryAt?_clearEntry] at hentry'
    split at hentry'
    next => cases hentry'
    next hplace =>
      -- the file stood under the name that was cleared, and under no other
      rw [h.apart other hother source hsource id hentry' hentry] at hplace
      exact hplace rfl
  refine ⟨_, hrename, hmoved.hosts, hmoved.found_eq, ?_⟩
  intro other hother hneSource hneTarget
  rw [hmoved.others other hother hneTarget, hcleared.others other hother hneSource]

end Hosts

end Disk

end BrokerTopology
