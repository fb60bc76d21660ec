/-
  BrokerTopology.Log.File — a log in a file.

  The file is opened for appending when the first entry is appended, and
  a file that is missing or empty gets its first line then.  A rewrite
  goes to a file beside the log that is then moved over it, so that a
  crash leaves the old log or the new one; the next entry opens the file
  anew.

  Main statements:
    * `load_of_missing` — where there is no file there are no entries.
-/
import BrokerTopology.Log.Lines
import BrokerTopology.Log.Lock

namespace BrokerTopology

/-- A log in a file, held by a broker. -/
structure JournalFile where
  directory : String
  lock : JournalLock
  /-- The file that entries are appended to, once one was. -/
  appendTo : Option Nat := none
deriving DecidableEq

namespace JournalFile

/-- The name of the file in its directory. -/
def fileName : String := "journal.jsonl"

/-- The path of the file in a directory. -/
def pathIn (directory : String) : String := Path.join directory fileName

/-- The path of the file. -/
def path (f : JournalFile) : String := pathIn f.directory

/-- The path of the file in a directory that a rewrite goes to. -/
def temporaryPathIn (directory : String) : String := Path.join directory (fileName ++ ".tmp")

/-- The path of the file that a rewrite goes to. -/
def temporaryPath (f : JournalFile) : String := temporaryPathIn f.directory

/-- The bytes of some lines. -/
def encode (text : List Char) : ByteArray := (String.ofList text).toUTF8

/-- Make the directory of a log and take the lock on it. -/
def acquire (claimant : Claimant) (directory : String) (d : Disk) :
    Outcome Disk JournalError JournalFile :=
  match d.makeDirectories directory with
  | (.error e, d) => (.error (.createDir e), d)
  | (.ok (), d) =>
    match JournalLock.acquire claimant directory (pathIn directory) d with
    | (.error e, d) => (.error (.lock e), d)
    | (.ok lock, d) => (.ok { directory, lock }, d)

/-- Give the lock back. -/
def release (f : JournalFile) (d : Disk) : Disk := f.lock.release d

/-- The entries of a file. -/
def load (f : JournalFile) (d : Disk) : Except JournalError (List JournalEntry) :=
  match d.readText f.path with
  -- a missing file is an empty log, and so is an empty one
  | .error .notFound => .ok []
  | .error e => .error (.read e)
  | .ok text => Lines.parse text.toList

/-- Whether there is nothing in the file yet, not even its first line. -/
def isFresh (f : JournalFile) (d : Disk) : Bool :=
  match d.read f.path with
  | .error _ => true
  | .ok bytes => bytes.size = 0

/-- The file that entries are appended to, opened now if it is not open. -/
def opened (f : JournalFile) (d : Disk) : Except JournalError (Nat × Disk) :=
  match f.appendTo with
  | some id => .ok (id, d)
  | none =>
    match d.openFile f.path with
    | .error e => .error (.write e)
    | .ok (id, after) =>
      -- whether it is fresh is asked of the disk before the file was created
      if f.isFresh d then .ok (id, after.extend id (encode (Lines.joinLines [Lines.headerText])))
      else .ok (id, after)

/-- Append an entry. -/
def append (f : JournalFile) (entry : JournalEntry) (d : Disk) :
    Outcome (JournalFile × Disk) JournalError Unit :=
  match f.opened d with
  | .error e => (.error e, f, d)
  | .ok (id, d) =>
    (.ok (), { f with appendTo := some id },
      d.extend id (encode (Lines.joinLines [Lines.entryText entry])))

/-- Put other entries in place of all. -/
def rewrite (f : JournalFile) (entries : List JournalEntry) (d : Disk) :
    Outcome (JournalFile × Disk) JournalError Unit :=
  match d.write f.temporaryPath (encode (Lines.fileText entries)) with
  | .error e => (.error (.write e), f, d)
  | .ok d =>
    -- the open file is about to lose its place, so it is let go of first
    let f := { f with appendTo := none }
    match d.renameFile f.temporaryPath f.path with
    | .error e => (.error (.write e), f, d)
    | .ok d => (.ok (), f, d)

theorem load_of_missing {f : JournalFile} {d : Disk} (h : d.readText f.path = .error .notFound) :
    f.load d = .ok [] := by
  simp [load, h]

end JournalFile

end BrokerTopology
