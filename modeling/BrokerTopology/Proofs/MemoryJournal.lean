/-
  BrokerTopology.Proofs.MemoryJournal — a journal on a log in memory.

  A log in memory refuses a call or carries it out, and a refused call
  leaves it alone.  So a journal either stays as it is, or what it knows
  of the log stays right: `Matches` says that the entries, replayed,
  come to the state the journal has, and that nothing of them is passed
  over.  It survives every rewriting of the log, since a closed state is
  replayed from what it is written down as.

  Main statements:
    * `Journal.compact_cases`, `Journal.recording` — a call is refused and
      changes nothing, or is carried out.
    * `Journal.record_cases` — recording keeps journal and log in step.
    * `OpenLog.openOn_cases` — opening a log rewrites it.
-/
import BrokerTopology.Log.Open
import BrokerTopology.Proofs.Replay

namespace BrokerTopology

namespace Journal

/-- The entries replay to what the journal knows of them, and nothing is passed over. -/
def Matches (j : Journal) (entries : List JournalEntry) : Prop :=
  DurableState.empty.Replays (entries.flatMap JournalEntry.ops) j.state

theorem Matches.state_eq {j : Journal} {entries : List JournalEntry} (h : j.Matches entries) :
    .ofEntries entries = j.state := h.1

theorem Matches.closed {j : Journal} {entries : List JournalEntry} (h : j.Matches entries) :
    j.state.Closed := by
  rw [← h.state_eq]
  exact DurableState.closed_ofEntries entries

/-! ## §1. Rewriting -/

theorem ops_snapshot (j : Journal) : j.snapshot.flatMap JournalEntry.ops = j.state.toOps := by
  unfold snapshot
  split
  next hnil => rw [hnil, List.flatMap_nil]
  next ops hops => simp

/-- A rewritten log matches. -/
theorem matches_snapshot {j j' : Journal} (h : j.state.Closed) (hstate : j'.state = j.state) :
    j'.Matches j.snapshot := by
  rw [Matches, ops_snapshot, hstate]
  exact h.replays_toOps

/-- The journal of a log just rewritten. -/
def compacted (j : Journal) : Journal := { j with lastSeq := max j.lastSeq 1, appended := 0 }

@[simp] theorem compacted_state (j : Journal) : j.compacted.state = j.state := rfl

theorem compact_cases (j : Journal) (m : MemoryLog) :
    (∃ e, j.compact ((), m) = (.error e, j, (), m) ∧ m.refusals ≠ {}) ∨
      j.compact ((), m) = (.ok (), j.compacted, (), { m with entries := j.snapshot }) := by
  cases hrewrite : m.refusals.rewrite with
  | none =>
    have hstore : LogStore.rewrite j.snapshot ((), m) =
        (.ok (), (), { m with entries := j.snapshot }) := by
      show MemoryLog.outcome (m.rewrite j.snapshot) = _
      unfold MemoryLog.rewrite
      rw [hrewrite]
      rfl
    refine Or.inr ?_
    unfold compact
    rw [hstore]
    rfl
  | some reason =>
    have hstore : LogStore.rewrite j.snapshot ((), m) =
        (.error (.write (.refused reason)), (), m) := by
      show MemoryLog.outcome (m.rewrite j.snapshot) = _
      rw [MemoryLog.rewrite_of_refused hrewrite]
      rfl
    refine Or.inl ⟨.write (.refused reason), ?_, ?_⟩
    · unfold compact
      rw [hstore]
    · intro heq
      rw [heq] at hrewrite
      cases hrewrite

/-- Rewriting when it is due either happens or does not. -/
theorem compactIfDue_cases (j : Journal) (m : MemoryLog) :
    j.compactIfDue ((), m) = (j, (), m) ∨
      j.compactIfDue ((), m) = (j.compacted, (), { m with entries := j.snapshot }) := by
  unfold compactIfDue
  split
  next =>
    rcases j.compact_cases m with ⟨e, heq, -⟩ | heq
    · exact Or.inl (by rw [heq])
    · exact Or.inr (by rw [heq])
  next => exact Or.inl rfl

/-! ## §2. Recording -/

/-- What may become of changes that are to be recorded. -/
inductive Recording (j : Journal) (ops : List DurableOp) (m : MemoryLog) :
    Outcome (Journal × Unit × MemoryLog) JournalError Unit → Prop
  | nothing (hops : ops = []) : Recording j ops m (.ok (), j, (), m)
  | refused (hops : ops ≠ []) (hrefused : m.refusals.append ≠ none) (e : JournalError) :
      Recording j ops m (.error e, j, (), m)
  | appended (hops : ops ≠ []) :
      Recording j ops m (.ok (), j.appending ops, (),
        { m with entries := m.entries ++ [{ seq := j.lastSeq + 1, ops }] })
  /-- The entry was appended, and the log rewritten right after. -/
  | rewritten (hops : ops ≠ []) :
      Recording j ops m (.ok (), (j.appending ops).compacted, (),
        { m with entries := (j.appending ops).snapshot })

theorem recording (j : Journal) (ops : List DurableOp) (m : MemoryLog) :
    Recording j ops m (j.record ops ((), m)) := by
  cases ops with
  | nil => exact .nothing rfl
  | cons op ops =>
    have hops : op :: ops ≠ [] := List.cons_ne_nil op ops
    cases happend : m.refusals.append with
    | some reason =>
      have hstore : LogStore.append { seq := j.lastSeq + 1, ops := op :: ops } ((), m) =
          (.error (.write (.refused reason)), (), m) := by
        show MemoryLog.outcome (m.append _) = _
        rw [MemoryLog.append_of_refused happend]
        rfl
      rw [record_of_append_error hstore]
      exact .refused hops (by rw [happend]; exact Option.some_ne_none reason) _
    | none =>
      have hstore : LogStore.append { seq := j.lastSeq + 1, ops := op :: ops } ((), m) =
          (.ok (), (), { m with
            entries := m.entries ++ [{ seq := j.lastSeq + 1, ops := op :: ops }] }) := by
        show MemoryLog.outcome (m.append _) = _
        unfold MemoryLog.append
        rw [happend]
        rfl
      simp only [record, hstore]
      rcases (j.appending (op :: ops)).compactIfDue_cases { m with
        entries := m.entries ++ [{ seq := j.lastSeq + 1, ops := op :: ops }] } with heq | heq
      · rw [heq]
        exact .appended hops
      · rw [heq]
        exact .rewritten hops

/-- An entry appended is replayed after the others. -/
theorem Matches.appending {j : Journal} {entries : List JournalEntry} (h : j.Matches entries)
    {ops : List DurableOp} {s' : DurableState} (hops : j.state.Replays ops s') :
    (j.appending ops).Matches (entries ++ [{ seq := j.lastSeq + 1, ops }]) := by
  have hreplays := h.append hops
  rw [← hops.1] at hreplays
  rw [Matches, List.flatMap_append, List.flatMap_singleton]
  exact hreplays

/-- Changes that pass nothing over are recorded, or nothing happens. -/
theorem record_cases (j : Journal) (ops : List DurableOp) (m : MemoryLog) :
    (∃ e, j.record ops ((), m) = (.error e, j, (), m)) ∨
      ∃ j' entries, j.record ops ((), m) = (.ok (), j', (), { m with entries }) ∧
        ∀ s', j.Matches m.entries → j.state.Replays ops s' →
          j'.Matches entries ∧ j'.state = s' := by
  have hrecording := j.recording ops m
  generalize j.record ops ((), m) = outcome at hrecording
  cases hrecording with
  | nothing hops =>
    refine Or.inr ⟨j, m.entries, rfl, ?_⟩
    intro s' h hreplays
    rw [hops] at hreplays
    exact ⟨h, hreplays.1⟩
  | refused _ _ e => exact Or.inl ⟨e, rfl⟩
  | appended hops =>
    exact Or.inr ⟨_, _, rfl, fun s' h hreplays => ⟨h.appending hreplays, hreplays.1⟩⟩
  | rewritten hops =>
    exact Or.inr ⟨_, _, rfl, fun s' h hreplays =>
      ⟨matches_snapshot (h.appending hreplays).closed rfl, hreplays.1⟩⟩

/-! ## §3. Loading -/

/-- A log whose calls all work is loaded and rewritten; one that cannot be is left alone. -/
theorem load_cases (compactAfter : Nat) (m : MemoryLog) :
    (∃ e, load compactAfter ((), m) = (.error e, (), m) ∧ m.refusals ≠ {}) ∨
      load compactAfter ((), m) = (.ok (ofEntries compactAfter m.entries).compacted, (),
        { m with entries := (ofEntries compactAfter m.entries).snapshot }) := by
  cases hload : m.refusals.load with
  | some reason =>
    have hstore : (LogStore.load ((), m) : Outcome (Unit × MemoryLog) _ _) =
        (.error (.read (.refused reason)), (), m) := by
      show MemoryLog.outcome m.load = _
      unfold MemoryLog.load
      rw [hload]
      rfl
    refine Or.inl ⟨.read (.refused reason), ?_, ?_⟩
    · simp only [load, hstore]
    · intro heq
      rw [heq] at hload
      cases hload
  | none =>
    have hstore : (LogStore.load ((), m) : Outcome (Unit × MemoryLog) _ _) =
        (.ok m.entries, (), m) := by
      show MemoryLog.outcome m.load = _
      unfold MemoryLog.load
      rw [hload]
      rfl
    rcases (Journal.ofEntries compactAfter m.entries).compact_cases m with
      ⟨e, heq, hrefused⟩ | heq
    · exact Or.inl ⟨e, by simp only [load, hstore, heq], hrefused⟩
    · exact Or.inr (by simp only [load, hstore, heq])

end Journal

namespace OpenLog

/-! ## §4. Open logs -/

theorem record_cases (log : OpenLog Unit) (ops : List DurableOp) (m : MemoryLog) :
    (∃ e, log.record ops m = (.error e, log, m)) ∨
      ∃ log' entries, log.record ops m = (.ok (), log', { m with entries }) ∧
        ∀ s', log.journal.Matches m.entries → log.journal.state.Replays ops s' →
          log'.journal.Matches entries ∧ log'.journal.state = s' := by
  unfold record
  rcases log.journal.record_cases ops m with ⟨e, heq⟩ | ⟨j', entries, heq, hmatches⟩
  · exact Or.inl ⟨e, by rw [heq]; rfl⟩
  · exact Or.inr ⟨⟨j', ()⟩, entries, by rw [heq]; rfl, hmatches⟩

theorem compact_cases (log : OpenLog Unit) (m : MemoryLog) :
    (∃ e, log.compact m = (.error e, log, m)) ∨
      log.compact m = (.ok (), ⟨log.journal.compacted, ()⟩,
        { m with entries := log.journal.snapshot }) := by
  unfold compact
  rcases log.journal.compact_cases m with ⟨e, heq, -⟩ | heq
  · exact Or.inl ⟨e, by rw [heq]; rfl⟩
  · exact Or.inr (by rw [heq]; rfl)

/-- Memory has nothing to flush. -/
theorem sync_memory (log : OpenLog Unit) (m : MemoryLog) : (log.sync m).2 = (log, m) := by
  have hstore : (LogStore.sync (log.handle, m)).2 = (log.handle, m) := by
    show (MemoryLog.outcome m.sync).2 = _
    unfold MemoryLog.sync
    split
    next => rfl
    next => rfl
  show ({ log with handle := (LogStore.sync (log.handle, m)).2.1 },
    (LogStore.sync (log.handle, m)).2.2) = (log, m)
  rw [hstore]

theorem openOn_cases (compactAfter : Nat) (m : MemoryLog) :
    (∃ e, openOn compactAfter m = (.error e, m) ∧ m.refusals ≠ {}) ∨
      openOn compactAfter m = (.ok ⟨(Journal.ofEntries compactAfter m.entries).compacted, ()⟩,
        { m with entries := (Journal.ofEntries compactAfter m.entries).snapshot }) := by
  rcases Journal.load_cases compactAfter m with ⟨e, heq, hrefused⟩ | heq
  · refine Or.inl ⟨e, ?_, hrefused⟩
    simp only [openOn, attach_memory, heq]
    rfl
  · exact Or.inr (by simp only [openOn, attach_memory, heq])

end OpenLog

end BrokerTopology
