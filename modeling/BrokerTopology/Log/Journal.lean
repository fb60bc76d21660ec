/-
  BrokerTopology.Log.Journal — a log and the durable state it encodes.

  Opening a journal replays the log and rewrites it at once to the
  shortest form of the state it adds up to.  After that every record is
  one entry, numbered one above the last; after so many of them the log
  is rewritten again.  Should that fail, the record stands all the same
  and the next one tries again.

  Main statements:
    * `record_of_append_error` — if the log refuses the entry, the
      journal is as it was.
-/
import BrokerTopology.Durable.State
import BrokerTopology.Log.Store

namespace BrokerTopology

/-- What is known of an open log. -/
structure Journal where
  /-- What the entries of the log add up to. -/
  state : DurableState
  /-- The highest number given to an entry. -/
  lastSeq : Nat
  /-- The entries appended since the log was rewritten. -/
  appended : Nat
  /-- So many of them have the log rewritten. -/
  compactAfter : Nat
deriving DecidableEq

namespace Journal

/-- The highest number among entries, or zero. -/
def highestSeq (entries : List JournalEntry) : Nat :=
  entries.foldl (fun highest e => max highest e.seq) 0

/-- The entries that a rewritten log holds: one with the whole state, or none for nothing. -/
def snapshot (j : Journal) : List JournalEntry :=
  match j.state.toOps with
  | [] => []
  -- the number of the last entry stays, so that numbers never go back
  | ops => [{ seq := max j.lastSeq 1, ops }]

variable {σ : Type} [LogStore σ]

/-- Rewrite the log to the shortest form of its state. -/
def compact (j : Journal) (store : σ) : Outcome (Journal × σ) JournalError Unit :=
  match LogStore.rewrite j.snapshot store with
  | (.error e, store) => (.error e, j, store)
  | (.ok (), store) => (.ok (), { j with lastSeq := max j.lastSeq 1, appended := 0 }, store)

/-- The journal of a log just read. -/
def ofEntries (compactAfter : Nat) (entries : List JournalEntry) : Journal where
  state := .ofEntries entries
  lastSeq := highestSeq entries
  appended := 0
  compactAfter := max compactAfter 1

/-- Replay a log and rewrite it. -/
def load (compactAfter : Nat) (store : σ) : Outcome σ JournalError Journal :=
  match LogStore.load store with
  | (.error e, store) => (.error e, store)
  | (.ok entries, store) =>
    -- a log that cannot be rewritten is not opened at all
    match (ofEntries compactAfter entries).compact store with
    | (.error e, _, store) => (.error e, store)
    | (.ok (), j, store) => (.ok j, store)

/-- The journal after an entry was appended. -/
def appending (j : Journal) (ops : List DurableOp) : Journal :=
  { j with state := j.state.applyAll ops, lastSeq := j.lastSeq + 1, appended := j.appended + 1 }

/-- Rewrite the log if enough entries were appended; a failure is left for the next time. -/
def compactIfDue (j : Journal) (store : σ) : Journal × σ :=
  if j.compactAfter ≤ j.appended then (j.compact store).2 else (j, store)

/-- Record changes as one entry. -/
def record (j : Journal) (ops : List DurableOp) (store : σ) :
    Outcome (Journal × σ) JournalError Unit :=
  match ops with
  | [] => (.ok (), j, store)
  | ops =>
    match LogStore.append { seq := j.lastSeq + 1, ops } store with
    | (.error e, store) => (.error e, j, store)
    -- from here on the changes are recorded, whatever comes of rewriting
    | (.ok (), store) => (.ok (), (j.appending ops).compactIfDue store)

theorem record_of_append_error {j : Journal} {op : DurableOp} {ops : List DurableOp}
    {store after : σ} {e : JournalError}
    (h : LogStore.append { seq := j.lastSeq + 1, ops := op :: ops } store = (.error e, after)) :
    j.record (op :: ops) store = (.error e, j, after) := by
  simp [record, h]

end Journal

end BrokerTopology
