/-
  BrokerTopology.Log.Open — a log that a broker has open.

  To open a log is to take hold of it on its medium, to replay it and to
  rewrite it.  If the log cannot be read or rewritten, the hold on it is
  given up again.

  Main statements:
    * `record_nil` — to record no change does nothing at all.
    * `release_memory` — giving up a log in memory leaves it as it is.
-/
import BrokerTopology.Log.Journal
import BrokerTopology.Log.Medium

namespace BrokerTopology

/-- A log that is open: what is known of it, and what is held of its medium. -/
structure OpenLog (handle : Type) where
  journal : Journal
  handle : handle
deriving DecidableEq

namespace OpenLog

variable {medium handle α : Type} [Medium medium handle]

/-- The outcome of a call on the journal of a log. -/
def outcome (r : Outcome (Journal × handle × medium) JournalError α) :
    Outcome (OpenLog handle × medium) JournalError α :=
  let (result, journal, handle, m) := r
  (result, { journal, handle }, m)

/-- Open the log on a medium. -/
def openOn (compactAfter : Nat) (m : medium) : Outcome medium JournalError (OpenLog handle) :=
  match Medium.attach m with
  | (.error e, m) => (.error e, m)
  | (.ok handle, m) =>
    match Journal.load compactAfter (handle, m) with
    | (.error e, handle, m) => (.error e, Medium.detach handle m)
    | (.ok journal, handle, m) => (.ok { journal, handle }, m)

/-- Record changes as one entry. -/
def record (log : OpenLog handle) (ops : List DurableOp) (m : medium) :
    Outcome (OpenLog handle × medium) JournalError Unit :=
  outcome (log.journal.record ops (log.handle, m))

/-- Rewrite the log to the shortest form of its state. -/
def compact (log : OpenLog handle) (m : medium) :
    Outcome (OpenLog handle × medium) JournalError Unit :=
  outcome (log.journal.compact (log.handle, m))

/-- Flush what was appended. -/
def sync (log : OpenLog handle) (m : medium) :
    Outcome (OpenLog handle × medium) JournalError Unit :=
  let (result, handle, m) := LogStore.sync (log.handle, m)
  (result, { log with handle }, m)

/-- Give up the hold on the log. -/
def release (log : OpenLog handle) (m : medium) : medium := Medium.detach log.handle m

theorem record_nil (log : OpenLog handle) (m : medium) : log.record [] m = (.ok (), log, m) := rfl

theorem release_memory (log : OpenLog Unit) (m : MemoryLog) : log.release m = m := rfl

end OpenLog

end BrokerTopology
