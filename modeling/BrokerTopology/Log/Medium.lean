/-
  BrokerTopology.Log.Medium — where a broker finds its log.

  A medium outlives the brokers that are opened on it.  An open broker
  holds something of it, and gives it back when it is shut down.

  There are two.  On a log in memory a broker holds nothing, so any
  number of them may be open; on a directory it holds the locked file.

  Main statements:
    * `attach_memory` — a log in memory never turns a broker away.
-/
import BrokerTopology.Log.File

namespace BrokerTopology

/-- Something that brokers are opened on, and what an open one holds of it. -/
class Medium (medium : Type) (handle : outParam Type) where
  /-- Take hold of the log. -/
  attach : medium → Outcome medium JournalError handle
  /-- Give the log back. -/
  detach : handle → medium → medium
  /-- What is held, together with the medium, stores entries. -/
  log : LogStore (handle × medium)

instance {medium handle : Type} [Medium medium handle] : LogStore (handle × medium) := Medium.log

/-! ## §1. Memory -/

/-- The outcome of a call on the log alone, with nothing held. -/
def MemoryLog.outcome {α : Type} (r : Outcome MemoryLog JournalError α) :
    Outcome (Unit × MemoryLog) JournalError α :=
  (r.1, (), r.2)

instance : Medium MemoryLog Unit where
  attach log := (.ok (), log)
  detach _ log := log
  log := {
    load := fun (_, log) => MemoryLog.outcome log.load
    append := fun entry (_, log) => MemoryLog.outcome (log.append entry)
    rewrite := fun entries (_, log) => MemoryLog.outcome (log.rewrite entries)
    sync := fun (_, log) => MemoryLog.outcome log.sync
  }

theorem attach_memory (log : MemoryLog) : Medium.attach log = (.ok (), log) := rfl

/-! ## §2. A directory -/

/-- A directory for a log, and who works on it. -/
structure JournalDirectory where
  disk : Disk
  path : String
  claimant : Claimant
deriving DecidableEq

namespace JournalDirectory

/-- The outcome of a call on the disk. -/
def outcome {α : Type} (m : JournalDirectory) (r : Outcome (JournalFile × Disk) JournalError α) :
    Outcome (JournalFile × JournalDirectory) JournalError α :=
  (r.1, r.2.1, { m with disk := r.2.2 })

/-- Take hold of the log in the directory. -/
def acquire (m : JournalDirectory) : Outcome JournalDirectory JournalError JournalFile :=
  let (file, disk) := JournalFile.acquire m.claimant m.path m.disk
  (file, { m with disk })

instance : Medium JournalDirectory JournalFile where
  attach := acquire
  detach file m := { m with disk := file.release m.disk }
  log := {
    load := fun (file, m) => m.outcome (file.load m.disk, file, m.disk)
    append := fun entry (file, m) => m.outcome (file.append entry m.disk)
    rewrite := fun entries (file, m) => m.outcome (file.rewrite entries m.disk)
    sync := fun (file, m) => (.ok (), file, m)
  }

end JournalDirectory

end BrokerTopology
