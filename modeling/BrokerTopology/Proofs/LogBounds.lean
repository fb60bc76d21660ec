/-
  BrokerTopology.Proofs.LogBounds — how many entries a log holds.

  A log grows by one entry with each record and shrinks to one entry or
  none when it is rewritten.  The journal counts the entries appended
  since, and rewrites the log when there are enough of them.  A rewriting
  that fails leaves the count, so that the next record tries again.

  So the log holds at most one entry more than were counted.  The count
  gets to the threshold only if the rewriting failed that the latest
  record led to; where none fails the log never holds more entries than
  the threshold says.

  Nothing more is asked of the store than what it promises: a call is
  carried out, or fails and changes nothing.  It may fail at any step and
  work again at the next.

  Main statements:
    * `Journal.called` — what a call may do to a journal and its store.
    * `Course.Kept.next`, `Course.Kept.after` — the bound is kept by a
      call, and by any number of them.
    * `Course.stored_log_bounded` — the bound on every log, whatever fails.
    * `Course.file_log_bounded` — the bound on a log file, where nothing
      does.
-/
import BrokerTopology.Proofs.FileSessions

namespace BrokerTopology

/-! ## §1. Stores that keep their entries -/

/-- A store of which every call is carried out or fails, and which keeps its entries if it fails.
Some stores can be rewritten without being known to hold certain entries: they are ready. -/
structure Faithful (σ : Type) [LogStore σ] where
  Ready : σ → Prop
  Holds : σ → List JournalEntry → Prop
  ready_of_holds : ∀ {store entries}, Holds store entries → Ready store
  load : ∀ {store}, Ready store → Ready (LogStore.load store).2
  rewrite : ∀ {store after entries}, Ready store →
    LogStore.rewrite entries store = (.ok (), after) → Holds after entries
  rewrite_failed : ∀ {store after entries new e}, Holds store entries →
    LogStore.rewrite new store = (.error e, after) → Holds after entries
  append : ∀ {store after entries e}, Holds store entries →
    LogStore.append e store = (.ok (), after) → Holds after (entries ++ [e])
  append_failed : ∀ {store after entries new e}, Holds store entries →
    LogStore.append new store = (.error e, after) → Holds after entries

namespace MemoryLog

theorem append_cases (log : MemoryLog) (e : JournalEntry) :
    (∃ err, log.append e = (.error err, log)) ∨
      log.append e = (.ok (), { log with entries := log.entries ++ [e] }) := by
  unfold append
  split
  next => exact Or.inl ⟨_, rfl⟩
  next => exact Or.inr rfl

theorem rewrite_cases (log : MemoryLog) (entries : List JournalEntry) :
    (∃ err, log.rewrite entries = (.error err, log)) ∨
      log.rewrite entries = (.ok (), { log with entries }) := by
  unfold rewrite
  split
  next => exact Or.inl ⟨_, rfl⟩
  next => exact Or.inr rfl

/-- A log in memory keeps its entries, whatever it refuses. -/
def faithful : Faithful MemoryLog where
  Ready _ := True
  Holds log entries := log.entries = entries
  ready_of_holds _ := trivial
  load _ := trivial
  rewrite := by
    intro log after entries _ h
    rcases log.rewrite_cases entries with ⟨err, heq⟩ | heq
    · cases heq.symm.trans h
    · cases heq.symm.trans h
      rfl
  rewrite_failed := by
    intro log after entries new e hholds h
    rcases log.rewrite_cases new with ⟨err, heq⟩ | heq
    · cases heq.symm.trans h
      exact hholds
    · cases heq.symm.trans h
  append := by
    intro log after entries e hholds h
    rcases log.append_cases e with ⟨err, heq⟩ | heq
    · cases heq.symm.trans h
    · cases heq.symm.trans h
      rw [← hholds]
  append_failed := by
    intro log after entries new e hholds h
    rcases log.append_cases new with ⟨err, heq⟩ | heq
    · cases heq.symm.trans h
      exact hholds
    · cases heq.symm.trans h

end MemoryLog

namespace JournalDirectory

variable {path : String} {store : JournalFile × JournalDirectory} {text : Option (List Char)}

theorem Holds.rewrite (h : Holds path store text) (entries : List JournalEntry) :
    ∃ after, LogStore.rewrite entries store = (.ok (), after) ∧
      Holds path after (some (Lines.fileText entries)) := by
  obtain ⟨f, m⟩ := store
  obtain ⟨rfl, hdirectory, number, hholds⟩ := h
  obtain ⟨f', after, hrewrite, hsame, hafter⟩ := hholds.rewrite entries
  refine ⟨(f', { m with disk := after }), ?_, rfl, hsame.trans hdirectory, number, hafter⟩
  show m.outcome (f.rewrite entries m.disk) = _
  rw [hrewrite]
  rfl

theorem Holds.append {entries : List JournalEntry}
    (h : Holds path store (some (Lines.fileText entries))) (e : JournalEntry) :
    ∃ after, LogStore.append e store = (.ok (), after) ∧
      Holds path after (some (Lines.fileText (entries ++ [e]))) := by
  obtain ⟨f, m⟩ := store
  obtain ⟨rfl, hdirectory, number, hholds⟩ := h
  obtain ⟨f', after, happend, hsame, hafter⟩ := hholds.append_fileText e
  refine ⟨(f', { m with disk := after }), ?_, rfl, hsame.trans hdirectory, number, hafter⟩
  show m.outcome (f.append e m.disk) = _
  rw [happend]
  rfl

/-- A log file in a directory that can host it is ready with any text, and holds the entries of
which it has the lines. -/
def faithful (path : String) : Faithful (JournalFile × JournalDirectory) where
  Ready store := ∃ text, Holds path store text
  Holds store entries := Holds path store (some (Lines.fileText entries))
  ready_of_holds hholds := ⟨_, hholds⟩
  load hready := hready
  rewrite := by
    rintro store after entries ⟨text, hholds⟩ h
    obtain ⟨after', hrewrite, hafter⟩ := hholds.rewrite entries
    rw [hrewrite] at h
    cases h
    exact hafter
  rewrite_failed := by
    intro store after entries new e hholds h
    obtain ⟨after', hrewrite, -⟩ := hholds.rewrite new
    rw [hrewrite] at h
    cases h
  append := by
    intro store after entries e hholds h
    obtain ⟨after', happend, hafter⟩ := hholds.append e
    rw [happend] at h
    cases h
    exact hafter
  append_failed := by
    intro store after entries new e hholds h
    obtain ⟨after', happend, -⟩ := hholds.append new
    rw [happend] at h
    cases h

end JournalDirectory

/-! ## §2. Calls on a journal -/

namespace Journal

/-- What may be asked of an open journal. -/
inductive Call where
  | record (ops : List DurableOp)
  | compact
deriving DecidableEq

variable {σ : Type} [LogStore σ]

/-- What is answered, and what becomes of the journal and its store. -/
def Call.run (call : Call) (j : Journal) (store : σ) :
    Outcome (Journal × σ) JournalError Unit :=
  match call with
  | record ops => j.record ops store
  | compact => j.compact store

/-- What the store answered when it was rewritten, if the call came to that: to record changes does
if the entry was appended and is one too many. -/
def Call.rewriting (call : Call) (j : Journal) (store : σ) : Option (Except JournalError Unit) :=
  match call with
  | record [] => none
  | record ops =>
    match LogStore.append { seq := j.lastSeq + 1, ops } store with
    | (.error _, _) => none
    | (.ok (), store) =>
      if (j.appending ops).compactAfter ≤ (j.appending ops).appended then
        some (LogStore.rewrite (j.appending ops).snapshot store).1
      else none
  | compact => some (LogStore.rewrite j.snapshot store).1

/-- Whether a call recorded changes: there were some, and it did not fail. -/
def Call.records : Call → Except JournalError Unit → Bool
  | record (_ :: _), .ok () => true
  | _, _ => false

theorem length_snapshot_le (j : Journal) : j.snapshot.length ≤ 1 := by
  rw [snapshot_eq]
  split
  next => exact Nat.zero_le 1
  next => exact Nat.le_refl 1

/-- What may become of a call on a journal and a store with these entries: what its rewriting came
to, what was answered, and journal and store afterwards. -/
inductive Called (w : Faithful σ) (j : Journal) (entries : List JournalEntry) :
    Call → Option (Except JournalError Unit) → Outcome (Journal × σ) JournalError Unit → Prop
  | idle {store : σ} (hholds : w.Holds store entries) :
      Called w j entries (.record []) none (.ok (), j, store)
  | refused {store : σ} (hholds : w.Holds store entries) (op : DurableOp) (ops : List DurableOp)
      (e : JournalError) : Called w j entries (.record (op :: ops)) none (.error e, j, store)
  | appended {store : σ} {op : DurableOp} {ops : List DurableOp}
      (hholds : w.Holds store (entries ++ [{ seq := j.lastSeq + 1, ops := op :: ops }]))
      (hdue : ¬ j.compactAfter ≤ j.appended + 1) :
      Called w j entries (.record (op :: ops)) none (.ok (), j.appending (op :: ops), store)
  | rewritten {store : σ} {op : DurableOp} {ops : List DurableOp}
      (hholds : w.Holds store (j.appending (op :: ops)).snapshot)
      (hdue : j.compactAfter ≤ j.appended + 1) :
      Called w j entries (.record (op :: ops)) (some (.ok ()))
        (.ok (), (j.appending (op :: ops)).compacted, store)
  /-- The entry was appended, and then the store could not be rewritten. -/
  | unrewritten {store : σ} {op : DurableOp} {ops : List DurableOp} (e : JournalError)
      (hholds : w.Holds store (entries ++ [{ seq := j.lastSeq + 1, ops := op :: ops }]))
      (hdue : j.compactAfter ≤ j.appended + 1) :
      Called w j entries (.record (op :: ops)) (some (.error e))
        (.ok (), j.appending (op :: ops), store)
  | compacted {store : σ} (hholds : w.Holds store j.snapshot) :
      Called w j entries .compact (some (.ok ())) (.ok (), j.compacted, store)
  | uncompacted {store : σ} (e : JournalError) (hholds : w.Holds store entries) :
      Called w j entries .compact (some (.error e)) (.error e, j, store)

theorem called_record (w : Faithful σ) (j : Journal) {store : σ} {entries : List JournalEntry}
    (h : w.Holds store entries) (op : DurableOp) (ops : List DurableOp) :
    Called w j entries (.record (op :: ops)) (Call.rewriting (.record (op :: ops)) j store)
      (j.record (op :: ops) store) := by
  unfold Call.rewriting record
  simp only
  cases happend : LogStore.append { seq := j.lastSeq + 1, ops := op :: ops } store with
  | mk result grown =>
    cases result with
    | error e => exact .refused (w.append_failed h happend) op ops e
    | ok _ =>
      have hgrown := w.append h happend
      unfold compactIfDue
      by_cases hdue : (j.appending (op :: ops)).compactAfter ≤ (j.appending (op :: ops)).appended
      · simp only [if_pos hdue, compact]
        cases hrewrite : LogStore.rewrite (j.appending (op :: ops)).snapshot grown with
        | mk result after =>
          cases result with
          | error e => exact .unrewritten e (w.rewrite_failed hgrown hrewrite) hdue
          | ok _ => exact .rewritten (w.rewrite (w.ready_of_holds hgrown) hrewrite) hdue
      · simp only [if_neg hdue]
        exact .appended hgrown hdue

theorem called (w : Faithful σ) (j : Journal) {store : σ} {entries : List JournalEntry}
    (h : w.Holds store entries) (call : Call) :
    Called w j entries call (call.rewriting j store) (call.run j store) := by
  cases call with
  | record ops =>
    cases ops with
    | nil => exact .idle h
    | cons op ops => exact called_record w j h op ops
  | compact =>
    unfold Call.rewriting Call.run compact
    simp only
    cases hrewrite : LogStore.rewrite j.snapshot store with
    | mk result after =>
      cases result with
      | error e => exact .uncompacted e (w.rewrite_failed h hrewrite)
      | ok _ => exact .compacted (w.rewrite (w.ready_of_holds h) hrewrite)

end Journal

/-! ## §3. One call after the other -/

namespace Faithful

variable {σ : Type} [LogStore σ]

/-- A call, and what befalls the store before it: other calls may be refused from then on, but it
holds what it held. -/
structure Turn (w : Faithful σ) where
  befall : σ → σ
  holds_befall : ∀ {store entries}, w.Holds store entries → w.Holds (befall store) entries
  call : Journal.Call

end Faithful

/-- An open journal, its store, and what is remembered of the calls on it. -/
structure Course (σ : Type) where
  journal : Journal
  store : σ
  /-- What the store answered when the latest record of changes had it rewritten, if it did. -/
  latest : Option (Except JournalError Unit) := none
  /-- Whether the store ever failed to be rewritten. -/
  failed : Bool := false

namespace Course

variable {σ : Type} [LogStore σ] {w : Faithful σ}

/-- What is answered in a turn, and what becomes of journal and store. -/
def outcome (s : Course σ) (turn : w.Turn) : Outcome (Journal × σ) JournalError Unit :=
  turn.call.run s.journal (turn.befall s.store)

/-- What the store answers when it is rewritten in a turn, if it is. -/
def rewriting (s : Course σ) (turn : w.Turn) : Option (Except JournalError Unit) :=
  turn.call.rewriting s.journal (turn.befall s.store)

/-- Whether changes are recorded in a turn. -/
def records (s : Course σ) (turn : w.Turn) : Bool := turn.call.records (s.outcome turn).1

/-- Whether a rewriting was tried and failed. -/
def isFailure : Option (Except JournalError Unit) → Bool
  | some (.error _) => true
  | _ => false

/-- One turn. -/
def next (s : Course σ) (turn : w.Turn) : Course σ where
  journal := (s.outcome turn).2.1
  store := (s.outcome turn).2.2
  latest := if s.records turn then s.rewriting turn else s.latest
  failed := s.failed || isFailure (s.rewriting turn)

/-- One turn after the other. -/
def after (s : Course σ) (turns : List w.Turn) : Course σ := turns.foldl next s

/-- What is known of a journal that has its log rewritten after so many entries. -/
structure Kept (w : Faithful σ) (threshold : Nat) (s : Course σ) : Prop where
  compactAfter_eq : s.journal.compactAfter = threshold
  length_le : ∃ entries, w.Holds s.store entries ∧ entries.length ≤ 1 + s.journal.appended
  overdue : threshold ≤ s.journal.appended → ∃ e, s.latest = some (.error e)
  lt_of_not_failed : s.failed = false → s.journal.appended < threshold

theorem Kept.next {threshold : Nat} {s : Course σ} (h : Kept w threshold s)
    (hpositive : 0 < threshold) (turn : w.Turn) : Kept w threshold (s.next turn) := by
  obtain ⟨hthreshold, ⟨entries, hholds, hlength⟩, hoverdue, hlt⟩ := h
  have hcalled := Journal.called w s.journal (turn.holds_befall hholds) turn.call
  unfold Course.next records rewriting outcome
  generalize turn.call.run s.journal (turn.befall s.store) = outcome at hcalled ⊢
  generalize turn.call.rewriting s.journal (turn.befall s.store) = rewriting at hcalled ⊢
  generalize turn.call = call at hcalled ⊢
  have hgrown : ∀ e : JournalEntry, (entries ++ [e]).length ≤ 1 + (s.journal.appended + 1) := by
    intro e
    rw [List.length_append, List.length_singleton]
    omega
  -- the count goes up by an entry that was appended, and back to nothing by a rewriting
  cases hcalled with
  | idle hholds =>
    exact ⟨hthreshold, ⟨entries, hholds, hlength⟩, hoverdue, by simpa [isFailure] using hlt⟩
  | refused hholds op ops e =>
    exact ⟨hthreshold, ⟨entries, hholds, hlength⟩, hoverdue, by simpa [isFailure] using hlt⟩
  | appended hholds hdue =>
    have hbelow : s.journal.appended + 1 < threshold := by omega
    exact ⟨hthreshold, ⟨_, hholds, hgrown _⟩, fun hle => absurd hle (Nat.not_le.2 hbelow),
      fun _ => hbelow⟩
  | rewritten hholds hdue =>
    exact ⟨hthreshold, ⟨_, hholds, Journal.length_snapshot_le _⟩,
      fun hle => absurd hle (Nat.not_le.2 hpositive), fun _ => hpositive⟩
  | unrewritten e hholds hdue =>
    exact ⟨hthreshold, ⟨_, hholds, hgrown _⟩, fun _ => ⟨e, rfl⟩, by simp [isFailure]⟩
  | compacted hholds =>
    exact ⟨hthreshold, ⟨_, hholds, Journal.length_snapshot_le _⟩,
      fun hle => absurd hle (Nat.not_le.2 hpositive), fun _ => hpositive⟩
  | uncompacted e hholds =>
    exact ⟨hthreshold, ⟨entries, hholds, hlength⟩, hoverdue, by simp [isFailure]⟩

theorem Kept.after {threshold : Nat} {s : Course σ} (h : Kept w threshold s)
    (hpositive : 0 < threshold) (turns : List w.Turn) : Kept w threshold (s.after turns) := by
  induction turns generalizing s with
  | nil => exact h
  | cons turn turns ih => exact ih (h.next hpositive turn)

/-- A log just opened. -/
theorem kept_of_load {store opened : σ} {compactAfter : Nat} {j : Journal}
    (hready : w.Ready store) (hload : Journal.load compactAfter store = (.ok j, opened)) :
    Kept w (max compactAfter 1) { journal := j, store := opened } := by
  have hloaded := w.load hready
  unfold Journal.load at hload
  cases hread : LogStore.load store with
  | mk result found =>
    rw [hread] at hload hloaded
    cases result with
    | error e => cases hload
    | ok entries =>
      simp only [Journal.compact] at hload
      cases hrewrite : LogStore.rewrite (Journal.ofEntries compactAfter entries).snapshot found with
      | mk result after =>
        rw [hrewrite] at hload
        cases result with
        | error e => cases hload
        | ok _ =>
          cases hload
          exact ⟨rfl, ⟨_, w.rewrite hloaded hrewrite, Journal.length_snapshot_le _⟩,
            fun hle => absurd hle (Nat.not_le.2 (Nat.le_max_right _ 1)),
            fun _ => Nat.le_max_right _ 1⟩

/-- A record of changes that has the store rewritten leaves one entry or none. -/
theorem Kept.rewritten {threshold : Nat} {s : Course σ} (h : Kept w threshold s) {turn : w.Turn}
    (hrewriting : s.rewriting turn = some (.ok ())) :
    ∃ entries, w.Holds (s.next turn).store entries ∧ entries.length ≤ 1 := by
  obtain ⟨entries, hholds, -⟩ := h.length_le
  have hcalled := Journal.called w s.journal (turn.holds_befall hholds) turn.call
  unfold rewriting at hrewriting
  rw [hrewriting] at hcalled
  unfold Course.next outcome
  generalize turn.call.run s.journal (turn.befall s.store) = outcome at hcalled ⊢
  generalize turn.call = call at hcalled
  cases hcalled with
  | rewritten hholds => exact ⟨_, hholds, Journal.length_snapshot_le _⟩
  | compacted hholds => exact ⟨_, hholds, Journal.length_snapshot_le _⟩

/-- A record of changes has the store rewritten if the entry is one too many. -/
theorem Kept.due {threshold : Nat} {s : Course σ} (h : Kept w threshold s) {turn : w.Turn}
    (hrecords : s.records turn = true) (hdue : threshold ≤ s.journal.appended + 1) :
    s.rewriting turn ≠ none := by
  obtain ⟨entries, hholds, -⟩ := h.length_le
  have hcalled := Journal.called w s.journal (turn.holds_befall hholds) turn.call
  have hthreshold := h.compactAfter_eq
  unfold rewriting
  unfold records outcome at hrecords
  generalize turn.call.run s.journal (turn.befall s.store) = outcome at hcalled hrecords
  generalize turn.call.rewriting s.journal (turn.befall s.store) = rewriting at hcalled ⊢
  generalize turn.call = call at hcalled hrecords
  cases hcalled with
  | idle => cases hrecords
  | refused => cases hrecords
  | appended _ hnotDue => exact absurd (hthreshold ▸ hdue) hnotDue
  | rewritten => exact Option.some_ne_none _
  | unrewritten => exact Option.some_ne_none _
  | compacted => exact Option.some_ne_none _
  | uncompacted => exact Option.some_ne_none _

/-- In every course of calls on a log that was opened, whatever fails in them, the log holds at
most one entry more than were appended since it was rewritten.  There are as many of these as the
threshold says only if the latest record of changes had the log rewritten and that failed; so as
long as no rewriting fails the log holds no more entries than the threshold says.  After one failed,
the next record tries again as soon as it is due, and if the log is rewritten it holds one entry or
none. -/
theorem stored_log_bounded {store opened : σ} {compactAfter : Nat} {j : Journal}
    (hready : w.Ready store) (hload : Journal.load compactAfter store = (.ok j, opened))
    (turns : List w.Turn) :
    let s := after { journal := j, store := opened } turns
    (∃ entries, w.Holds s.store entries ∧ entries.length ≤ 1 + s.journal.appended ∧
      (s.failed = false → entries.length ≤ max compactAfter 1)) ∧
    (max compactAfter 1 ≤ s.journal.appended → ∃ e, s.latest = some (.error e)) ∧
    ∀ turn : w.Turn,
      (s.records turn = true → max compactAfter 1 ≤ s.journal.appended + 1 →
        s.rewriting turn ≠ none) ∧
      (s.rewriting turn = some (.ok ()) →
        ∃ entries, w.Holds (s.next turn).store entries ∧ entries.length ≤ 1) := by
  intro s
  have hkept : Kept w (max compactAfter 1) s :=
    (kept_of_load hready hload).after (Nat.le_max_right _ 1) turns
  obtain ⟨entries, hholds, hlength⟩ := hkept.length_le
  refine ⟨⟨entries, hholds, hlength, ?_⟩, hkept.overdue, ?_⟩
  · intro hfailed
    have hlt := hkept.lt_of_not_failed hfailed
    omega
  · intro turn
    exact ⟨hkept.due, hkept.rewritten⟩

/-- A log in memory that held two entries when it was opened. -/
def seeded : MemoryLog where
  entries := [⟨4, [.declareQueue "a" false]⟩, ⟨7, [.declareQueue "b" true, .deleteQueue "c"]⟩]

/-- A turn on a log in memory, from which on it refuses these calls. -/
def turnOn (refusals : Refusals) (call : Journal.Call) : MemoryLog.faithful.Turn where
  befall log := { log with refusals }
  holds_befall hholds := hholds
  call

/-- Three records of changes while the log cannot be rewritten, and one that is refused. -/
def fullTurns : List MemoryLog.faithful.Turn :=
  [turnOn { rewrite := some "full" } (.record [.declareQueue "d" false]),
    turnOn { rewrite := some "full" } (.record [.deleteQueue "d"]),
    turnOn { append := some "full" } (.record [.deleteQueue "a"]),
    turnOn { rewrite := some "full" } (.record [.bind ⟨"a", "amq.topic", "#"⟩])]

/-- The bound is met: one entry from the opening, and three that were appended since. -/
theorem stored_log_bounded_of_full :
    let j := (Journal.ofEntries 2 seeded.entries).compacted
    let opened : MemoryLog := { entries := (Journal.ofEntries 2 seeded.entries).snapshot }
    let s := after { journal := j, store := opened } fullTurns
    MemoryLog.faithful.Ready seeded ∧ Journal.load 2 seeded = (.ok j, opened) ∧
    s.store.entries.length = 4 ∧ s.journal.appended = 3 ∧
    (∃ entries, MemoryLog.faithful.Holds s.store entries ∧
      entries.length ≤ 1 + s.journal.appended ∧
      (s.failed = false → entries.length ≤ max 2 1)) ∧
    (max 2 1 ≤ s.journal.appended → ∃ e, s.latest = some (.error e)) ∧
    ∀ turn : MemoryLog.faithful.Turn,
      (s.records turn = true → max 2 1 ≤ s.journal.appended + 1 → s.rewriting turn ≠ none) ∧
      (s.rewriting turn = some (.ok ()) →
        ∃ entries, MemoryLog.faithful.Holds (s.next turn).store entries ∧ entries.length ≤ 1) := by
  intro j opened s
  have hload : Journal.load 2 seeded = (.ok j, opened) := rfl
  exact ⟨trivial, hload, by decide +kernel, by decide +kernel,
    stored_log_bounded (w := MemoryLog.faithful) trivial hload fullTurns⟩

/-! ## §4. Log files -/

/-- A log file in a directory that can host it is never refused a rewriting. -/
theorem Kept.not_failed {path : String} {threshold : Nat}
    {s : Course (JournalFile × JournalDirectory)}
    (h : Kept (JournalDirectory.faithful path) threshold s)
    (turn : (JournalDirectory.faithful path).Turn) : isFailure (s.rewriting turn) = false := by
  obtain ⟨entries, hholds, -⟩ := h.length_le
  have hbefore : JournalDirectory.Holds path (turn.befall s.store)
      (some (Lines.fileText entries)) := turn.holds_befall hholds
  unfold rewriting Journal.Call.rewriting
  split
  next => rfl
  next ops _ _ =>
    obtain ⟨grown, happend, hgrown⟩ := hbefore.append { seq := s.journal.lastSeq + 1, ops }
    rw [happend]
    simp only
    split
    next =>
      obtain ⟨after, hrewrite, -⟩ := hgrown.rewrite (s.journal.appending ops).snapshot
      rw [hrewrite]
      rfl
    next => rfl
  next =>
    obtain ⟨after, hrewrite, -⟩ := hbefore.rewrite s.journal.snapshot
    rw [hrewrite]
    rfl

theorem Kept.failed_after {path : String} {threshold : Nat}
    {s : Course (JournalFile × JournalDirectory)}
    (h : Kept (JournalDirectory.faithful path) threshold s) (hpositive : 0 < threshold)
    (hfailed : s.failed = false) (turns : List (JournalDirectory.faithful path).Turn) :
    (s.after turns).failed = false := by
  induction turns generalizing s with
  | nil => exact hfailed
  | cons turn turns ih =>
    refine ih (h.next hpositive turn) ?_
    show (s.failed || isFailure (s.rewriting turn)) = false
    rw [hfailed, h.not_failed turn]
    rfl

/-- So a log file never holds more entries than the threshold says, whatever text it had when it was
opened. -/
theorem file_log_bounded {path : String} {store opened : JournalFile × JournalDirectory}
    {text : Option (List Char)} (hholds : JournalDirectory.Holds path store text)
    {compactAfter : Nat} {j : Journal}
    (hload : Journal.load compactAfter store = (.ok j, opened))
    (turns : List (JournalDirectory.faithful path).Turn) :
    let s := after { journal := j, store := opened } turns
    ∃ entries, JournalDirectory.Holds path s.store (some (Lines.fileText entries)) ∧
      entries.length ≤ max compactAfter 1 := by
  intro s
  have hpositive : 0 < max compactAfter 1 := Nat.le_max_right _ 1
  have hopened : Kept (JournalDirectory.faithful path) (max compactAfter 1)
      { journal := j, store := opened } := kept_of_load ⟨text, hholds⟩ hload
  have hkept := hopened.after hpositive turns
  obtain ⟨entries, hentries, hlength⟩ := hkept.length_le
  have hlt := hkept.lt_of_not_failed (hopened.failed_after hpositive rfl turns)
  exact ⟨entries, hentries, by omega⟩

end Course

end BrokerTopology
