/-
  BrokerTopology.Log.Store — where the entries of a log are kept.

  A store is a state with four calls: to read all entries back, to
  append one, to put a new list in place of all of them, and to flush.
  Any of them may fail.

  The store in memory is a list.  It can be told to refuse some of the
  calls, and a refused call leaves the list alone.

  Main statements:
    * `MemoryLog.append_of_refused`, `MemoryLog.rewrite_of_refused` — a
      refused call changes nothing.
-/
import BrokerTopology.Durable.Op
import BrokerTopology.Log.Error

namespace BrokerTopology

/-- What a call answers, and the state it leaves. -/
abbrev Outcome (σ ε α : Type) := Except ε α × σ

/-- A state that holds the entries of a log. -/
class LogStore (σ : Type) where
  /-- Every entry, in the order of the log. -/
  load : σ → Outcome σ JournalError (List JournalEntry)
  /-- One more entry at the end. -/
  append : JournalEntry → σ → Outcome σ JournalError Unit
  /-- These entries and no others. -/
  rewrite : List JournalEntry → σ → Outcome σ JournalError Unit
  /-- Flush what was appended. -/
  sync : σ → Outcome σ JournalError Unit

/-! ## The store in memory -/

/-- For each call, the reason it is refused for. -/
structure Refusals where
  load : Option String := none
  append : Option String := none
  rewrite : Option String := none
  sync : Option String := none
deriving DecidableEq

/-- A log in memory. -/
structure MemoryLog where
  entries : List JournalEntry := []
  refusals : Refusals := {}
deriving DecidableEq

namespace MemoryLog

/-- Refuse appending and rewriting, as a medium that cannot be written does. -/
def withWritesDisabled (log : MemoryLog) (disabled : Bool) : MemoryLog :=
  let reason := if disabled then some "journal writes disabled" else none
  { log with refusals := { log.refusals with append := reason, rewrite := reason } }

/-- Read the entries. -/
def load (log : MemoryLog) : Outcome MemoryLog JournalError (List JournalEntry) :=
  match log.refusals.load with
  | some reason => (.error (.read (.refused reason)), log)
  | none => (.ok log.entries, log)

/-- Append an entry. -/
def append (entry : JournalEntry) (log : MemoryLog) : Outcome MemoryLog JournalError Unit :=
  match log.refusals.append with
  | some reason => (.error (.write (.refused reason)), log)
  | none => (.ok (), { log with entries := log.entries ++ [entry] })

/-- Replace all entries. -/
def rewrite (entries : List JournalEntry) (log : MemoryLog) :
    Outcome MemoryLog JournalError Unit :=
  match log.refusals.rewrite with
  | some reason => (.error (.write (.refused reason)), log)
  | none => (.ok (), { log with entries })

/-- Flush: memory has nothing to flush. -/
def sync (log : MemoryLog) : Outcome MemoryLog JournalError Unit :=
  match log.refusals.sync with
  | some reason => (.error (.write (.refused reason)), log)
  | none => (.ok (), log)

instance : LogStore MemoryLog where
  load := load
  append := append
  rewrite := rewrite
  sync := sync

theorem append_of_refused {log : MemoryLog} {reason : String}
    (h : log.refusals.append = some reason) (entry : JournalEntry) :
    log.append entry = (.error (.write (.refused reason)), log) := by
  simp [append, h]

theorem rewrite_of_refused {log : MemoryLog} {reason : String}
    (h : log.refusals.rewrite = some reason) (entries : List JournalEntry) :
    log.rewrite entries = (.error (.write (.refused reason)), log) := by
  simp [rewrite, h]

end MemoryLog

end BrokerTopology
