/-
  BrokerTopology.Disk — directories and files as a value.

  Directories and files have numbers.  A directory says what stands under
  each name in it; the contents of a file are kept apart, so that a file
  that is open keeps its contents when its name is taken or cleared.  A
  file can be locked; whoever locked it is the only one who may unlock
  it.

  Paths are walked name by name, and every name is looked up in a
  directory that is there.

  Main statements:
    * `entryAt?_setEntry` — setting a place changes no other.
    * `contents_setContents` — nor does writing a file change another.
    * `ensureDirectory_of_present` — a directory that is there will do.
-/
import BrokerTopology.Log.Error
import BrokerTopology.Name
import BrokerTopology.Path

namespace BrokerTopology

/-! ## §1. Directories and files -/

/-- What stands under a name, by its number. -/
inductive DiskEntry where
  | directory (number : Nat)
  | file (id : Nat)
deriving DecidableEq, Repr

/-- A directory. -/
structure Directory where
  /-- The number of the directory it is in; the root is in itself. -/
  parent : Nat := 0
  entries : NameMap DiskEntry := ∅
deriving DecidableEq

/-- A file apart from the name it stands under. -/
structure DiskFile where
  contents : ByteArray := .empty
  locked : Bool := false

instance : DecidableEq DiskFile := fun a b =>
  decidable_of_iff (a.contents.data = b.contents.data ∧ a.locked = b.locked)
    (by
      obtain ⟨⟨contents⟩, locked⟩ := a
      obtain ⟨⟨contents'⟩, locked'⟩ := b
      simp)

/-- Directories and files. -/
structure Disk where
  directories : Std.ExtTreeMap Nat Directory compare := ∅
  files : Std.ExtTreeMap Nat DiskFile compare := ∅
  /-- The number of the next directory or file. -/
  nextNumber : Nat := 1
  /-- The path of the directory that paths without a slash in front are looked up from. -/
  workingDirectory : String := "/"
deriving DecidableEq

/-- Where a path leads. -/
inductive Place where
  /-- A directory that is there. -/
  | inside (directory : Nat)
  /-- A name in a directory, whether something stands under it or not. -/
  | under (directory : Nat) (name : String)
deriving DecidableEq, Repr

namespace Disk

/-- The number of the root. -/
def root : Nat := 0

/-- The directory under a number. -/
def directory (d : Disk) (number : Nat) : Directory := d.directories[number]?.getD {}

/-- Change the directory under a number. -/
def setDirectory (d : Disk) (number : Nat) (directory : Directory) : Disk :=
  { d with directories := d.directories.insert number directory }

/-- What stands at a place. -/
def entryAt? (d : Disk) : Place → Option DiskEntry
  | .inside number => some (.directory number)
  | .under number name => (d.directory number).entries[name]?

/-- Put something under a name. -/
def setEntry (d : Disk) (number : Nat) (name : String) (entry : DiskEntry) : Disk :=
  let directory := d.directory number
  d.setDirectory number { directory with entries := directory.entries.insert name entry }

/-- Clear a name.  A file that stood under it lives on for those who have it open. -/
def clearEntry (d : Disk) (number : Nat) (name : String) : Disk :=
  let directory := d.directory number
  d.setDirectory number { directory with entries := directory.entries.erase name }

/-- The file under a number. -/
def file (d : Disk) (id : Nat) : DiskFile := d.files[id]?.getD {}

/-- Change the file under a number. -/
def setFile (d : Disk) (id : Nat) (f : DiskFile) : Disk :=
  { d with files := d.files.insert id f }

/-- The bytes of a file. -/
def contents (d : Disk) (id : Nat) : ByteArray := (d.file id).contents

/-- Replace the bytes of a file. -/
def setContents (d : Disk) (id : Nat) (bytes : ByteArray) : Disk :=
  d.setFile id { d.file id with contents := bytes }

/-- Put bytes at the end of a file. -/
def extend (d : Disk) (id : Nat) (bytes : ByteArray) : Disk :=
  d.setContents id (d.contents id ++ bytes)

/-- Whether a file is locked. -/
def isLocked (d : Disk) (id : Nat) : Bool := (d.file id).locked

/-- Lock or unlock a file. -/
def setLocked (d : Disk) (id : Nat) (locked : Bool) : Disk :=
  d.setFile id { d.file id with locked }

theorem entryAt?_setEntry (d : Disk) (number : Nat) (name : String) (entry : DiskEntry)
    (place : Place) :
    (d.setEntry number name entry).entryAt? place =
      if place = .under number name then some entry else d.entryAt? place := by
  cases place with
  | inside other => simp [entryAt?]
  | under other otherName =>
    by_cases hn : number = other
    · subst hn
      by_cases hs : name = otherName
      · subst hs
        simp [entryAt?, setEntry, setDirectory, directory]
      · have hs' : otherName ≠ name := fun h => hs h.symm
        simp [entryAt?, setEntry, setDirectory, directory, Std.ExtTreeMap.getElem?_insert, hs, hs']
    · have hn' : other ≠ number := fun h => hn h.symm
      simp [entryAt?, setEntry, setDirectory, directory, Std.ExtTreeMap.getElem?_insert, hn, hn']

theorem contents_setContents (d : Disk) (id other : Nat) (bytes : ByteArray) :
    (d.setContents id bytes).contents other = if id = other then bytes else d.contents other := by
  by_cases h : id = other <;>
    simp [contents, setContents, setFile, file, Std.ExtTreeMap.getElem?_insert, h]

theorem isLocked_setContents (d : Disk) (id other : Nat) (bytes : ByteArray) :
    (d.setContents id bytes).isLocked other = d.isLocked other := by
  by_cases h : id = other <;>
    simp [isLocked, setContents, setFile, file, Std.ExtTreeMap.getElem?_insert, h]

/-! ## §2. Walking a path -/

/-- The longest name of an entry, in bytes. -/
def maxNameBytes : Nat := 255

/-- A path of so many bytes is too long. -/
def pathBytesBound : Nat := 4096

/-- The place that a name leads to from another place. -/
def step (d : Disk) (place : Place) (name : String) : Except IoError Place :=
  match d.entryAt? place with
  | none => .error .notFound
  | some (.file _) => .error .notDirectory
  | some (.directory number) =>
    if name = "." then .ok (.inside number)
    -- two dots at the root stay there
    else if name = ".." then .ok (.inside (d.directory number).parent)
    else if maxNameBytes < name.utf8ByteSize then .error .nameTooLong
    else .ok (.under number name)

/-- Walk a path from a place. -/
def walk (d : Disk) (place : Place) (path : String) : Except IoError Place :=
  (Path.names path).foldlM d.step place

/-- Where the walk of a path starts. -/
def start (d : Disk) (path : String) : Except IoError Place :=
  if Path.isAbsolute path then .ok (.inside root) else d.walk (.inside root) d.workingDirectory

/-- What is wrong with a path before it is walked. -/
def checkPath (path : String) : Except IoError Unit :=
  if path.toList.contains '\x00' then .error .holdsNul
  else if path.isEmpty then .error .notFound
  else if pathBytesBound ≤ path.utf8ByteSize then .error .nameTooLong
  else .ok ()

/-- The place that a path leads to.  Nothing need stand there, but it is in a directory. -/
def locate (d : Disk) (path : String) : Except IoError Place := do
  checkPath path
  d.walk (← d.start path) path

/-- The file at the end of a path. -/
def fileAt (d : Disk) (path : String) : Except IoError Nat := do
  match d.entryAt? (← d.locate path) with
  | none => .error .notFound
  | some (.directory _) => .error .isDirectory
  | some (.file id) => if Path.endsInSlash path then .error .notDirectory else .ok id

/-! ## §3. Files -/

/-- Put an empty file under a name. -/
def createFile (d : Disk) (number : Nat) (name : String) : Nat × Disk :=
  (d.nextNumber,
    { d.setEntry number name (.file d.nextNumber) with
      files := d.files.insert d.nextNumber {}
      nextNumber := d.nextNumber + 1 })

/-- Whether a path is written as that of a file: it ends in the name of an entry. -/
def namesFile (path : String) : Bool := Path.endsInEntry path && !Path.endsInSlash path

/-- The file at the end of a path, which is created if nothing stands there. -/
def openFile (d : Disk) (path : String) : Except IoError (Nat × Disk) := do
  let place ← d.locate path
  if !namesFile path then .error .isDirectory
  else
    match place, d.entryAt? place with
    | _, some (.file id) => .ok (id, d)
    | .under number name, none => .ok (d.createFile number name)
    | _, _ => .error .isDirectory

/-- The bytes of the file at the end of a path. -/
def read (d : Disk) (path : String) : Except IoError ByteArray :=
  (d.fileAt path).map d.contents

/-- The text of the file at the end of a path. -/
def readText (d : Disk) (path : String) : Except IoError String := do
  match String.fromUTF8? (← d.read path) with
  | none => .error .notText
  | some text => .ok text

/-- Replace the bytes of the file at the end of a path, or create it. -/
def write (d : Disk) (path : String) (bytes : ByteArray) : Except IoError Disk :=
  (d.openFile path).map fun (id, d) => d.setContents id bytes

/-- Put bytes at the end of the file at the end of a path, or create it. -/
def append (d : Disk) (path : String) (bytes : ByteArray) : Except IoError Disk :=
  (d.openFile path).map fun (id, d) => d.extend id bytes

/-- Clear the name of a file. -/
def removeFile (d : Disk) (path : String) : Except IoError Disk := do
  let _ ← d.fileAt path
  match ← d.locate path with
  | .inside _ => .error .isDirectory
  | .under number name => .ok (d.clearEntry number name)

/-- Move a file to another name, over the file that stands under it. -/
def renameFile (d : Disk) (source target : String) : Except IoError Disk := do
  let old ← d.locate source
  let new ← d.locate target
  match old, d.entryAt? old, new, d.entryAt? new with
  | _, none, _, _ => .error .notFound
  | _, some (.directory _), _, _ => .error .busy
  | _, _, _, some (.directory _) => .error .isDirectory
  -- whoever has the file open that is moved over keeps its contents
  | .under number name, some entry, .under newNumber newName, _ =>
    .ok ((d.clearEntry number name).setEntry newNumber newName entry)
  | _, _, _, _ => .error .isDirectory

/-! ## §4. Directories -/

/-- Put an empty directory under a name. -/
def createDirectory (d : Disk) (number : Nat) (name : String) : Disk :=
  { (d.setEntry number name (.directory d.nextNumber)).setDirectory d.nextNumber
      { parent := number } with
    nextNumber := d.nextNumber + 1 }

/-- Make a directory in one that is there. -/
def makeDirectory (d : Disk) (path : String) : Except IoError Disk := do
  let place ← d.locate path
  match place, d.entryAt? place with
  | .under number name, none => .ok (d.createDirectory number name)
  | _, _ => .error .alreadyExists

/-- Whether a path leads to a directory. -/
def isDirectory (d : Disk) (path : String) : Bool :=
  match d.locate path with
  | .error _ => false
  | .ok place =>
    match d.entryAt? place with
    | some (.directory _) => true
    | _ => false

/-- Make a directory; one that is there already will do. -/
def ensureDirectory (d : Disk) (path : String) : Except IoError Unit × Disk :=
  match d.makeDirectory path with
  | .ok d => (.ok (), d)
  | .error e => (if d.isDirectory path then .ok () else .error e, d)

/-- Make a directory, and if it cannot be found where it belongs, those that it is in first.
Directories that were made stay, whatever comes of the others. -/
def ensureWithin (d : Disk) (path : String) : List String → Except IoError Unit × Disk
  | [] => if path.isEmpty then (.ok (), d) else d.ensureDirectory path
  | parent :: others =>
    match d.ensureDirectory path with
    | (.error .notFound, d) =>
      match d.ensureWithin parent others with
      | (.error e, d) => (.error e, d)
      | (.ok (), d) => d.ensureDirectory path
    | outcome => outcome

/-- Make the directory at the end of a path, and those on the way to it that are missing. -/
def makeDirectories (d : Disk) (path : String) : Except IoError Unit × Disk :=
  d.ensureWithin path (Path.ancestors path)

theorem ensureDirectory_of_present {d : Disk} {path : String} {e : IoError}
    (hmake : d.makeDirectory path = .error e) (h : d.isDirectory path = true) :
    d.ensureDirectory path = (.ok (), d) := by
  simp [ensureDirectory, hmake, h]

/-- The names in the directory at the end of a path, in order. -/
def list (d : Disk) (path : String) : Except IoError (List String) := do
  match d.entryAt? (← d.locate path) with
  | none => .error .notFound
  | some (.file _) => .error .notDirectory
  | some (.directory number) => .ok (d.directory number).entries.keys

/-- Clear the name of an empty directory. -/
def removeDirectory (d : Disk) (path : String) : Except IoError Disk := do
  let place ← d.locate path
  match (Path.names path).getLast?, place, d.entryAt? place with
  | none, _, _ => .error .busy
  | some ".", _, _ => .error .invalidName
  -- two dots lead to a directory that holds at least the one they were looked up in
  | some "..", _, _ => .error .notEmpty
  | _, _, none => .error .notFound
  | _, _, some (.file _) => .error .notDirectory
  | _, .inside _, _ => .error .busy
  | _, .under number name, some (.directory removed) =>
    if (d.directory removed).entries.isEmpty then .ok (d.clearEntry number name)
    else .error .notEmpty

end Disk

end BrokerTopology
