/-
  BrokerTopology.Log.Lock — the lock on a directory with a log.

  Only one broker may have a log open.  It locks a file beside the log
  and writes into it who it is, so that one that is refused can say who
  is in the way.  What the file says matters only then: the lock itself
  is what keeps others out.

  Main statements:
    * `readHolder_writeHolder` — what a holder writes reads back.
    * `acquire_of_locked` — a lock that is held is refused, and nothing
      changes but that the lock file exists.
-/
import BrokerTopology.Disk
import BrokerTopology.Json.Reader
import BrokerTopology.Json.Writer
import BrokerTopology.Log.Store
import BrokerTopology.Word

namespace BrokerTopology

/-- Who asks for the lock on a log, and when. -/
structure Claimant where
  pid : Nat
  /-- The present time, in seconds. -/
  now : Nat
deriving DecidableEq, Repr

/-! ## §1. Who holds a log -/

/-- What a lock file says. -/
structure LockHolder where
  format : Nat
  pid : Nat
  brokerVersion : String
  journal : String
  acquiredAt : Nat
deriving DecidableEq, Repr

namespace LockHolder

/-- The format of lock files. -/
def currentFormat : Nat := 1

/-- What a claimant writes that takes the lock on a log now. -/
def ofClaimant (claimant : Claimant) (journal : String) : LockHolder where
  format := currentFormat
  pid := claimant.pid
  brokerVersion := Release.version
  journal := journal
  acquiredAt := claimant.now

/-- The seconds since the lock was taken; none if it will be taken later. -/
def heldFor (now : Nat) (holder : LockHolder) : Nat := now - holder.acquiredAt

/-- The fields of a holder's record. -/
def fields : List String := ["format", "pid", "broker_version", "journal", "acquired_at_unix"]

/-- The holder that a document records. -/
def readHolder (v : Json) : Option LockHolder := do
  match ← v.fields? fields with
  | [format, pid, brokerVersion, journal, acquiredAt] =>
    let format ← format.natBelow? Word.bound32
    let pid ← pid.natBelow? Word.bound32
    let brokerVersion ← brokerVersion.str?
    let journal ← journal.str?
    let acquiredAt ← acquiredAt.natBelow? Word.bound64
    pure { format, pid, brokerVersion, journal, acquiredAt }
  | _ => none

/-- A holder as a document. -/
def writeHolder (holder : LockHolder) : Json :=
  .record [("format", .nat holder.format), ("pid", .nat holder.pid),
    ("broker_version", .str holder.brokerVersion), ("journal", .str holder.journal),
    ("acquired_at_unix", .nat holder.acquiredAt)]

/-- The holder that a text names. -/
def ofText? (text : String) : Option LockHolder := (Json.parse text).bind readHolder

/-- The text that names a holder. -/
def toText (holder : LockHolder) : String := (writeHolder holder).compact

theorem readHolder_writeHolder {holder : LockHolder} (hformat : holder.format < Word.bound32)
    (hpid : holder.pid < Word.bound32) (htime : holder.acquiredAt < Word.bound64) :
    readHolder (writeHolder holder) = some holder := by
  have hfields : (writeHolder holder).fields? fields =
      some [.nat holder.format, .nat holder.pid, .str holder.brokerVersion, .str holder.journal,
        .nat holder.acquiredAt] := rfl
  unfold readHolder
  rw [hfields]
  show ((Json.nat holder.format).natBelow? Word.bound32).bind _ = _
  rw [Json.natBelow?_nat hformat]
  show ((Json.nat holder.pid).natBelow? Word.bound32).bind _ = _
  rw [Json.natBelow?_nat hpid]
  show ((Json.nat holder.acquiredAt).natBelow? Word.bound64).bind _ = _
  rw [Json.natBelow?_nat htime]
  rfl

end LockHolder

/-! ## §2. Taking and releasing the lock -/

/-- A lock that is held. -/
structure JournalLock where
  /-- The file that is locked. -/
  file : Nat
  path : String
deriving DecidableEq, Repr

namespace JournalLock

/-- The name of the lock file in the directory of a log. -/
def fileName : String := "journal.lock"

/-- The path of the lock file in a directory. -/
def pathIn (directory : String) : String := Path.join directory fileName

/-- Why a log is refused whose lock is held. -/
def refusal (claimant : Claimant) (path journal : String) (d : Disk) : LockError :=
  match (d.readText path).toOption.bind LockHolder.ofText? with
  | none => .heldUnknown path
  | some holder =>
    -- the same process: another broker in it has the log open
    if holder.pid = claimant.pid then .alreadyOpen journal
    else .held holder.journal holder.pid holder.brokerVersion (holder.heldFor claimant.now) path

/-- Take the lock in a directory. -/
def acquire (claimant : Claimant) (directory journal : String) (d : Disk) :
    Outcome Disk LockError JournalLock :=
  let path := pathIn directory
  match d.openFile path with
  | .error e => (.error (.openFailed e), d)
  | .ok (file, d) =>
    -- opening creates the lock file, also for one who is then refused
    if d.isLocked file then (.error (refusal claimant path journal d), d)
    else
      (.ok { file, path },
        (d.setLocked file true).setContents file
          (LockHolder.ofClaimant claimant journal).toText.toUTF8)

/-- Release a lock.  The lock file stays. -/
def release (lock : JournalLock) (d : Disk) : Disk := d.setLocked lock.file false

/-- Who the lock file says holds a lock, as far as it says so. -/
def holder? (lock : JournalLock) (d : Disk) : Option LockHolder :=
  (String.fromUTF8? (d.contents lock.file)).bind LockHolder.ofText?

theorem acquire_of_locked {claimant : Claimant} {directory journal : String} {d after : Disk}
    {file : Nat} (hopen : d.openFile (pathIn directory) = .ok (file, after))
    (hlocked : after.isLocked file = true) :
    acquire claimant directory journal d =
      (.error (refusal claimant (pathIn directory) journal after), after) := by
  simp [acquire, hopen, hlocked]

end JournalLock

end BrokerTopology
