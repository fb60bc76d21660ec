/-
  BrokerTopology.Proofs.LogSessions — a journal and its log, whatever
  fails.

  A session is a medium and the log that is open on it, if one is.  It is
  opened, again and again, and while it is open changes are recorded and
  the log is rewritten or flushed.  On a log in memory each of the calls
  underneath may be refused at each step.

  What a journal knows of its log stays right through all of that:
  `Keeps` says that the entries add up to the state of the journal, also
  if some of their changes are passed over, that their numbers go up, and
  that none is above the last one given.

  To open a log also settles it: what is there is what would be written
  in its place.  That stays so until something is recorded, hence opening
  it again changes nothing.

  Main statements:
    * `Journal.keeps_snapshot`, `Journal.Keeps.appending` — rewriting and
      appending keep journal and log in step.
    * `LogSession.Sound.step`, `LogSession.Settled.step` — so does a step,
      and one that records nothing leaves a settled log alone.
    * `LogSession.journal_keeps_log` — what holds of every session on a log
      in memory.
-/
import BrokerTopology.Proofs.MemoryJournal

namespace BrokerTopology

/-! ## §1. Sessions -/

/-- A medium, and the log that is open on it, if one is. -/
structure LogSession (medium handle : Type) where
  medium : medium
  log : Option (OpenLog handle) := none

namespace LogSession

/-- What may be done in a session. -/
inductive Step where
  /-- To open the log; one that is open is given up first. -/
  | reopen (compactAfter : Nat)
  | record (ops : List DurableOp)
  | compact
  | sync
  /-- To ask for the state. -/
  | state
deriving DecidableEq

/-- What is answered. -/
inductive Reply where
  | done
  | state (s : DurableState)
  | failed (e : JournalError)
  /-- No log is open. -/
  | absent
deriving DecidableEq

/-- What is answered to a call that has no answer of its own. -/
def Reply.ofResult : Except JournalError Unit → Reply
  | .ok () => done
  | .error e => failed e

section

variable {medium handle : Type} [Medium medium handle]

/-- The medium, with nobody holding the log. -/
def released (s : LogSession medium handle) : medium :=
  match s.log with
  | none => s.medium
  | some log => log.release s.medium

/-- Do something with the log, if it is open. -/
def onLog (s : LogSession medium handle)
    (f : OpenLog handle → medium → Outcome (OpenLog handle × medium) JournalError Unit) :
    Reply × LogSession medium handle :=
  match s.log with
  | none => (.absent, s)
  | some log =>
    let (result, log, medium) := f log s.medium
    (.ofResult result, { medium, log := some log })

/-- One step. -/
def step (s : LogSession medium handle) : Step → Reply × LogSession medium handle
  | .reopen compactAfter =>
    match OpenLog.openOn compactAfter s.released with
    | (.error e, medium) => (.failed e, { medium })
    | (.ok log, medium) => (.state log.journal.state, { medium, log := some log })
  | .record ops => s.onLog fun log => log.record ops
  | .compact => s.onLog OpenLog.compact
  | .sync => s.onLog OpenLog.sync
  | .state =>
    match s.log with
    | none => (.absent, s)
    | some log => (.state log.journal.state, s)

end

end LogSession

/-! ## §2. Journals in step with their logs -/

namespace Journal

/-- A journal and the entries of its log: they add up to its state, their numbers go up, and none
is above the last one given. -/
structure Keeps (j : Journal) (entries : List JournalEntry) : Prop where
  state_eq : .ofEntries entries = j.state
  increasing : entries.Pairwise fun e e' => e.seq < e'.seq
  bounded : ∀ e ∈ entries, e.seq ≤ j.lastSeq

theorem Keeps.closed {j : Journal} {entries : List JournalEntry} (h : j.Keeps entries) :
    j.state.Closed := by
  rw [← h.state_eq]
  exact DurableState.closed_ofEntries entries

/-- A rewritten log holds one entry, or none for nothing. -/
theorem snapshot_eq (j : Journal) :
    j.snapshot = if j.state.toOps = [] then [] else
      [{ seq := max j.lastSeq 1, ops := j.state.toOps }] := by
  unfold snapshot
  split
  next hnil => rw [if_pos hnil]
  next hops => rw [if_neg hops]

/-- Rewriting keeps them in step, as long as the state can be written down. -/
theorem keeps_snapshot {j : Journal} (h : j.state.Closed) : j.compacted.Keeps j.snapshot := by
  refine ⟨(matches_snapshot h (compacted_state j)).state_eq, ?_, ?_⟩
  · rw [snapshot_eq]
    split
    next => exact .nil
    next => exact List.pairwise_singleton _ _
  · intro e he
    rw [snapshot_eq] at he
    split at he
    next => cases he
    next =>
      rw [List.mem_singleton.1 he]
      exact Nat.le_refl _

/-- So does appending. -/
theorem Keeps.appending {j : Journal} {entries : List JournalEntry} (h : j.Keeps entries)
    (ops : List DurableOp) :
    (j.appending ops).Keeps (entries ++ [{ seq := j.lastSeq + 1, ops }]) := by
  refine ⟨?_, ?_, ?_⟩
  · rw [DurableState.ofEntries, List.flatMap_append, List.flatMap_singleton,
      DurableState.applyAll_append]
    exact congrArg (·.applyAll ops) h.state_eq
  · rw [List.pairwise_append]
    refine ⟨h.increasing, List.pairwise_singleton _ _, ?_⟩
    intro e he e' he'
    rw [List.mem_singleton.1 he']
    exact Nat.lt_succ_of_le (h.bounded e he)
  · intro e he
    rcases List.mem_append.1 he with he | he
    · exact Nat.le_succ_of_le (h.bounded e he)
    · rw [List.mem_singleton.1 he]
      exact Nat.le_refl _

/-- What the log would be rewritten to does not change by rewriting it. -/
theorem snapshot_compacted (j : Journal) : j.compacted.snapshot = j.snapshot := by
  have hseq : max (max j.lastSeq 1) 1 = max j.lastSeq 1 := by omega
  simp only [snapshot, compacted, hseq]

/-- Nor by reading it back. -/
theorem snapshot_ofEntries_snapshot {j : Journal} (h : j.state.Closed) (compactAfter : Nat) :
    (ofEntries compactAfter j.snapshot).snapshot = j.snapshot := by
  have hstate : (ofEntries compactAfter j.snapshot).state = j.state :=
    (matches_snapshot h (compacted_state j)).state_eq
  rw [snapshot_eq (ofEntries compactAfter j.snapshot), hstate, snapshot_eq j]
  split
  next => rfl
  next =>
    have hseq : max (max 0 (max j.lastSeq 1)) 1 = max j.lastSeq 1 := by omega
    simp only [ofEntries, highestSeq, List.foldl_cons, List.foldl_nil, hseq]

end Journal

/-! ## §3. Sessions on a log in memory -/

namespace LogSession

/-- The same session, where from now on the log refuses these calls. -/
def refusing (s : LogSession MemoryLog Unit) (refusals : Refusals) : LogSession MemoryLog Unit :=
  { s with medium := { s.medium with refusals } }

/-- One step, in which the log refuses these calls. -/
def next (s : LogSession MemoryLog Unit) (event : Refusals × Step) : LogSession MemoryLog Unit :=
  ((s.refusing event.1).step event.2).2

/-- One step after the other. -/
def after (s : LogSession MemoryLog Unit) (events : List (Refusals × Step)) :
    LogSession MemoryLog Unit :=
  events.foldl next s

/-- What may become of a step on a log in memory. -/
inductive Stepped (s : LogSession MemoryLog Unit) :
    Step → Reply × LogSession MemoryLog Unit → Prop
  | absent (hlog : s.log = none) (step : Step) : Stepped s step (.absent, s)
  | unopened (compactAfter : Nat) (e : JournalError) :
      Stepped s (.reopen compactAfter) (.failed e, { medium := s.medium })
  | opened (compactAfter : Nat) :
      Stepped s (.reopen compactAfter) (.state (.ofEntries s.medium.entries),
        { medium := { s.medium with
            entries := (Journal.ofEntries compactAfter s.medium.entries).snapshot }
          log := some ⟨(Journal.ofEntries compactAfter s.medium.entries).compacted, ()⟩ })
  | recorded {log : OpenLog Unit} (hlog : s.log = some log) {ops : List DurableOp}
      {outcome : Outcome (Journal × Unit × MemoryLog) JournalError Unit}
      (hrecording : log.journal.Recording ops s.medium outcome) :
      Stepped s (.record ops) (.ofResult outcome.1,
        { medium := outcome.2.2.2, log := some ⟨outcome.2.1, outcome.2.2.1⟩ })
  | uncompacted (e : JournalError) : Stepped s .compact (.failed e, s)
  | compacted {log : OpenLog Unit} (hlog : s.log = some log) :
      Stepped s .compact (.done,
        { medium := { s.medium with entries := log.journal.snapshot }
          log := some ⟨log.journal.compacted, ()⟩ })
  | synced (reply : Reply) : Stepped s .sync (reply, s)
  | asked (found : DurableState) : Stepped s .state (.state found, s)

theorem released_memory (s : LogSession MemoryLog Unit) : s.released = s.medium := by
  unfold released
  split
  next => rfl
  next log _ => exact OpenLog.release_memory log s.medium

theorem stepped (s : LogSession MemoryLog Unit) (step : Step) : Stepped s step (s.step step) := by
  cases step with
  | reopen compactAfter =>
    unfold LogSession.step
    simp only
    rw [released_memory]
    rcases OpenLog.openOn_cases compactAfter s.medium with ⟨e, heq, -⟩ | heq
    · rw [heq]
      exact .unopened compactAfter e
    · rw [heq]
      exact .opened compactAfter
  | record ops =>
    show Stepped s _ (s.onLog fun log => log.record ops)
    unfold onLog
    split
    next hlog => exact .absent hlog _
    next log hlog => exact .recorded hlog (log.journal.recording ops s.medium)
  | compact =>
    show Stepped s _ (s.onLog OpenLog.compact)
    unfold onLog
    split
    next hlog => exact .absent hlog _
    next log hlog =>
      rcases log.compact_cases s.medium with ⟨e, heq⟩ | heq
      · rw [heq]
        -- the log is put back as it was taken out
        show Stepped s .compact (.failed e, { medium := s.medium, log := some log })
        rw [← hlog]
        exact .uncompacted e
      · rw [heq]
        exact .compacted hlog
  | sync =>
    show Stepped s _ (s.onLog OpenLog.sync)
    unfold onLog
    split
    next hlog => exact .absent hlog _
    next log hlog =>
      show Stepped s .sync (.ofResult (log.sync s.medium).1,
        { medium := (log.sync s.medium).2.2, log := some (log.sync s.medium).2.1 })
      rw [log.sync_memory s.medium, ← hlog]
      exact .synced _
  | state =>
    unfold LogSession.step
    simp only
    split
    next hlog => exact .absent hlog _
    next => exact .asked _

/-! ## §4. What every step keeps -/

/-- If a journal is open, it is in step with its log. -/
def Sound (s : LogSession MemoryLog Unit) : Prop :=
  ∀ log, s.log = some log → log.journal.Keeps s.medium.entries

theorem Sound.step {s : LogSession MemoryLog Unit} (h : s.Sound) (step : Step) :
    (s.step step).2.Sound := by
  have hstepped := s.stepped step
  generalize s.step step = outcome at hstepped ⊢
  intro log' hlog'
  -- only an opening, an append and a rewriting touch the log; the rest leaves both as they are
  cases hstepped with
  | absent hlog =>
    rw [hlog] at hlog'
    cases hlog'
  | unopened => cases hlog'
  | opened compactAfter =>
    injection hlog' with hlog'
    subst hlog'
    exact Journal.keeps_snapshot (DurableState.closed_ofEntries _)
  | @recorded log hlog ops outcome hrecording =>
    have hkeeps := h log hlog
    injection hlog' with hlog'
    subst hlog'
    cases hrecording with
    | nothing => exact hkeeps
    | refused => exact hkeeps
    | appended => exact hkeeps.appending ops
    | rewritten => exact Journal.keeps_snapshot (hkeeps.appending ops).closed
  | uncompacted => exact h log' hlog'
  | @compacted log hlog =>
    have hkeeps := h log hlog
    injection hlog' with hlog'
    subst hlog'
    exact Journal.keeps_snapshot hkeeps.closed
  | synced => exact h log' hlog'
  | asked => exact h log' hlog'

theorem Sound.after {s : LogSession MemoryLog Unit} (h : s.Sound)
    (events : List (Refusals × Step)) : (s.after events).Sound := by
  induction events generalizing s with
  | nil => exact h
  | cons event events ih =>
    -- what the log refuses makes no difference to its entries
    have hrefusing : (s.refusing event.1).Sound := h
    exact ih (hrefusing.step event.2)

/-! ## §5. What records nothing -/

/-- Whether a step recorded something: it had changes to record, and did. -/
def Step.records : Step → Reply → Bool
  | record ops, .done => !ops.isEmpty
  | _, _ => false

theorem isEmpty_of_idle {ops : List DurableOp} (h : (Step.record ops).records .done = false) :
    ops = [] := by
  cases ops with
  | nil => rfl
  | cons => cases h

/-- Of steps one after the other, none records anything. -/
def Idle (s : LogSession MemoryLog Unit) : List (Refusals × Step) → Prop
  | [] => True
  | event :: events =>
    event.2.records ((s.refusing event.1).step event.2).1 = false ∧ (s.next event).Idle events

/-- The log holds these entries, and however it is rewritten it will hold them again. -/
structure Settled (s : LogSession MemoryLog Unit) (entries : List JournalEntry) : Prop where
  entries_eq : s.medium.entries = entries
  reopened : ∀ compactAfter, (Journal.ofEntries compactAfter entries).snapshot = entries
  rewritten : ∀ log, s.log = some log → log.journal.snapshot = entries

theorem Settled.step {s : LogSession MemoryLog Unit} {entries : List JournalEntry}
    (h : s.Settled entries) {step : Step} (hidle : step.records (s.step step).1 = false) :
    (s.step step).2.Settled entries := by
  have hstepped := s.stepped step
  generalize s.step step = outcome at hstepped hidle ⊢
  cases hstepped with
  | absent => exact h
  | unopened => exact ⟨h.entries_eq, h.reopened, fun _ hlog => nomatch hlog⟩
  | opened compactAfter =>
    rw [h.entries_eq, h.reopened]
    refine ⟨rfl, h.reopened, ?_⟩
    intro log hlog
    injection hlog with hlog
    subst hlog
    exact (Journal.snapshot_compacted _).trans (h.reopened compactAfter)
  | @recorded log hlog ops outcome hrecording =>
    have hsame : ({ medium := s.medium, log := some log } :
        LogSession MemoryLog Unit).Settled entries := by
      rw [← hlog]
      exact h
    -- what was appended was not nothing, so this step was not an idle one
    cases hrecording with
    | nothing => exact hsame
    | refused => exact hsame
    | appended hops => exact absurd (isEmpty_of_idle hidle) hops
    | rewritten hops => exact absurd (isEmpty_of_idle hidle) hops
  | uncompacted => exact h
  | @compacted log hlog =>
    rw [h.rewritten log hlog]
    refine ⟨rfl, h.reopened, ?_⟩
    intro log' hlog'
    injection hlog' with hlog'
    subst hlog'
    exact (Journal.snapshot_compacted _).trans (h.rewritten log hlog)
  | synced => exact h
  | asked => exact h

theorem Settled.after {s : LogSession MemoryLog Unit} {entries : List JournalEntry}
    (h : s.Settled entries) {events : List (Refusals × Step)} (hidle : s.Idle events) :
    (s.after events).Settled entries := by
  induction events generalizing s with
  | nil => exact h
  | cons event events ih =>
    have hrefusing : (s.refusing event.1).Settled entries := ⟨h.1, h.2, h.3⟩
    exact ih (hrefusing.step hidle.1) hidle.2

/-- A log just opened is settled. -/
theorem settled_of_opened {s : LogSession MemoryLog Unit} {compactAfter : Nat}
    {found : DurableState} (hopened : (s.step (.reopen compactAfter)).1 = .state found) :
    (s.step (.reopen compactAfter)).2.Settled
      (s.step (.reopen compactAfter)).2.medium.entries := by
  have hstepped := s.stepped (.reopen compactAfter)
  generalize s.step (.reopen compactAfter) = outcome at hstepped hopened ⊢
  cases hstepped with
  | absent => cases hopened
  | unopened => cases hopened
  | opened =>
    refine ⟨rfl, Journal.snapshot_ofEntries_snapshot (DurableState.closed_ofEntries _), ?_⟩
    intro log hlog
    injection hlog with hlog
    subst hlog
    exact Journal.snapshot_compacted _

/-- A log that could not be opened is as it was. -/
theorem entries_of_unopened {s : LogSession MemoryLog Unit} {compactAfter : Nat}
    {e : JournalError} (hfailed : (s.step (.reopen compactAfter)).1 = .failed e) :
    (s.step (.reopen compactAfter)).2.medium.entries = s.medium.entries := by
  have hstepped := s.stepped (.reopen compactAfter)
  generalize s.step (.reopen compactAfter) = outcome at hstepped hfailed ⊢
  cases hstepped with
  | absent => rfl
  | unopened => rfl
  | opened => cases hfailed

/-- To record changes either applies them to the state, whatever comes of rewriting, or fails and
changes nothing. -/
theorem record_allOrNothing {s : LogSession MemoryLog Unit} {log : OpenLog Unit}
    (hlog : s.log = some log) (ops : List DurableOp) :
    ((s.step (.record ops)).1 = .done ∧ ∃ log', (s.step (.record ops)).2.log = some log' ∧
        log'.journal.state = log.journal.state.applyAll ops) ∨
      ∃ e, (s.step (.record ops)).1 = .failed e ∧ s.medium.refusals.append ≠ none ∧
        (s.step (.record ops)).2 = s := by
  have hstepped := s.stepped (.record ops)
  generalize s.step (.record ops) = outcome at hstepped ⊢
  cases hstepped with
  | absent hnone =>
    rw [hnone] at hlog
    cases hlog
  | @recorded log' hlog' _ outcome hrecording =>
    rw [hlog] at hlog'
    injection hlog' with hlog'
    subst hlog'
    cases hrecording with
    | nothing hops =>
      refine Or.inl ⟨rfl, _, rfl, ?_⟩
      rw [hops]
      rfl
    | refused _ hrefused e =>
      refine Or.inr ⟨e, rfl, hrefused, ?_⟩
      rw [← hlog]
    | appended => exact Or.inl ⟨rfl, _, rfl, rfl⟩
    | rewritten => exact Or.inl ⟨rfl, _, rfl, rfl⟩

/-- In every session on a log in memory, with whatever entries at first and whatever calls the log
refuses at each step.  While a journal is open, the entries of the log add up to its state, their
numbers go up and none is above the last one given.  To record changes applies them to the state,
also if the rewriting that it leads to is refused, or fails, since appending is refused, and then
changes neither journal nor log.  A log that cannot be opened is as it was.  And from an opening on,
as long as nothing is recorded the log stays the same, however often it is opened again. -/
theorem journal_keeps_log (entries : List JournalEntry) (events : List (Refusals × Step)) :
    let s : LogSession MemoryLog Unit := after { medium := { entries } } events
    (∀ log, s.log = some log → .ofEntries s.medium.entries = log.journal.state ∧
      (s.medium.entries.Pairwise fun e e' => e.seq < e'.seq) ∧
      ∀ e ∈ s.medium.entries, e.seq ≤ log.journal.lastSeq) ∧
    (∀ refusals ops log, s.log = some log →
      let outcome := (s.refusing refusals).step (.record ops)
      (outcome.1 = .done ∧ ∃ log', outcome.2.log = some log' ∧
          log'.journal.state = log.journal.state.applyAll ops) ∨
        ∃ e, outcome.1 = .failed e ∧ refusals.append ≠ none ∧ outcome.2.log = s.log ∧
          outcome.2.medium.entries = s.medium.entries) ∧
    (∀ refusals compactAfter e,
      let outcome := (s.refusing refusals).step (.reopen compactAfter)
      outcome.1 = .failed e → outcome.2.medium.entries = s.medium.entries) ∧
    ∀ refusals compactAfter found idle,
      let outcome := (s.refusing refusals).step (.reopen compactAfter)
      outcome.1 = .state found → outcome.2.Idle idle →
        (outcome.2.after idle).medium.entries = outcome.2.medium.entries := by
  intro s
  have hfirst : Sound { medium := { entries } } := fun log hlog => nomatch hlog
  have hsound : s.Sound := hfirst.after events
  refine ⟨?_, ?_, ?_, ?_⟩
  · intro log hlog
    obtain ⟨hstate, hincreasing, hbounded⟩ := hsound log hlog
    exact ⟨hstate, hincreasing, hbounded⟩
  · intro refusals ops log hlog
    have hsame : (s.refusing refusals).log = some log := hlog
    rcases record_allOrNothing hsame ops with hdone | ⟨e, hfailed, hrefused, hafter⟩
    · exact Or.inl hdone
    · refine Or.inr ⟨e, hfailed, hrefused, ?_⟩
      rw [hafter]
      exact ⟨rfl, rfl⟩
  · intro refusals compactAfter e outcome hfailed
    exact entries_of_unopened hfailed
  · intro refusals compactAfter found idle outcome hopened hidle
    exact ((settled_of_opened hopened).after hidle).entries_eq

example : (after { medium := { entries := [⟨9, [.declareQueue "q" false]⟩, ⟨3, []⟩] } }
    [({}, .reopen 1), ({ rewrite := some "full" }, .record [.deleteQueue "q"])]).medium.entries =
      [⟨9, [.declareQueue "q" false]⟩, ⟨10, [.deleteQueue "q"]⟩] := by decide +kernel

end LogSession

end BrokerTopology
