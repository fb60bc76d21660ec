/-
  BrokerTopology.Proofs.FileSessions — a log in a file and a log in memory
  answer alike.

  What a journal does with its log depends on the log through four calls
  only.  Where none of them fails, all there is to say of a medium is
  which entries are found on it and which are there afterwards: that is
  what `Faultless` asks for, and a journal on any such medium knows and
  writes the same.

  A log in memory that refuses nothing is faultless, and so is a file in
  a directory that can host it, whatever readable text it starts with:
  once it is open, its text is that of the entries and nothing else.  So
  two sessions, one on each, go through the same steps with the same
  answers.

  Main statements:
    * `Faultless.openOn`, `Faultless.record` — what becomes of a journal
      where nothing fails.
    * `MemoryLog.faultless`, `JournalDirectory.faultless` — both media.
    * `LogSession.Alike.step` — sessions alike answer alike and stay alike.
    * `LogSession.file_answers_as_memory` — a file and a list, over any
      steps.
-/
import BrokerTopology.Proofs.LogFiles
import BrokerTopology.Proofs.LogSessions

namespace BrokerTopology

/-! ## §1. Media on which nothing fails -/

/-- A medium on which no call fails, as far as entries have numbers that can be written.  It says
which entries it offers to one who opens the log, which of them are found by one who just did, and
which it holds once they were rewritten. -/
structure Faultless (medium handle : Type) [Medium medium handle] where
  Offers : medium → List JournalEntry → Prop
  Finds : handle × medium → List JournalEntry → Prop
  Holds : handle × medium → List JournalEntry → Prop
  attach : ∀ {m entries}, Offers m entries →
    ∃ handle after, Medium.attach m = (.ok handle, after) ∧ Finds (handle, after) entries
  load : ∀ {store entries}, Finds store entries → LogStore.load store = (.ok entries, store)
  rewrite : ∀ {store entries}, Finds store entries → ∀ entries' : List JournalEntry,
    (∀ e ∈ entries', e.seq < Record.seqBound) →
    ∃ after, LogStore.rewrite entries' store = (.ok (), after) ∧ Holds after entries'
  append : ∀ {store entries}, Holds store entries → ∀ e : JournalEntry, e.seq < Record.seqBound →
    ∃ after, LogStore.append e store = (.ok (), after) ∧ Holds after (entries ++ [e])
  sync : ∀ {store entries}, Holds store entries → LogStore.sync store = (.ok (), store)
  finds_of_holds : ∀ {store entries}, Holds store entries → Finds store entries
  detach : ∀ {handle m entries}, Holds (handle, m) entries →
    Offers (Medium.detach handle m) entries

namespace Journal

/-- The journal after changes were recorded where nothing fails, and the entries of its log. -/
def recorded (j : Journal) (ops : List DurableOp) (entries : List JournalEntry) :
    Journal × List JournalEntry :=
  if ops = [] then (j, entries)
  else if (j.appending ops).compactAfter ≤ (j.appending ops).appended then
    ((j.appending ops).compacted, (j.appending ops).snapshot)
  else (j.appending ops, entries ++ [{ seq := j.lastSeq + 1, ops }])

theorem seq_snapshot_lt {j : Journal} (h : j.lastSeq < Record.seqBound) :
    ∀ e ∈ j.snapshot, e.seq < Record.seqBound := by
  intro e he
  rw [snapshot_eq] at he
  split at he
  next => cases he
  next =>
    rw [List.mem_singleton.1 he]
    exact Nat.max_lt.2 ⟨h, by decide⟩

theorem recorded_lt {j : Journal} {ops : List DurableOp} {entries : List JournalEntry}
    (hlast : j.lastSeq < Record.seqBound) (hseq : ∀ e ∈ entries, e.seq < Record.seqBound)
    (hfits : ops ≠ [] → j.lastSeq + 1 < Record.seqBound) :
    (j.recorded ops entries).1.lastSeq < Record.seqBound ∧
      ∀ e ∈ (j.recorded ops entries).2, e.seq < Record.seqBound := by
  unfold recorded
  split
  next => exact ⟨hlast, hseq⟩
  next hops =>
    have hnext : (j.appending ops).lastSeq < Record.seqBound := hfits hops
    split
    next => exact ⟨Nat.max_lt.2 ⟨hnext, by decide⟩, seq_snapshot_lt hnext⟩
    next => exact ⟨hnext, List.forall_mem_append.2 ⟨hseq, List.forall_mem_singleton.2 hnext⟩⟩

theorem highestSeq_lt {entries : List JournalEntry} {bound : Nat} (hbound : 0 < bound)
    (h : ∀ e ∈ entries, e.seq < bound) : highestSeq entries < bound := by
  unfold highestSeq
  generalize 0 = highest at hbound ⊢
  induction entries generalizing highest with
  | nil => exact hbound
  | cons e entries ih =>
    obtain ⟨he, hentries⟩ := List.forall_mem_cons.1 h
    exact ih hentries _ (Nat.max_lt.2 ⟨hbound, he⟩)

end Journal

namespace Faultless

variable {medium handle : Type} [Medium medium handle] (w : Faultless medium handle)
  {j : Journal} {store : handle × medium} {entries : List JournalEntry}

theorem compact (h : w.Finds store entries) (hseq : j.lastSeq < Record.seqBound) :
    ∃ after, j.compact store = (.ok (), j.compacted, after) ∧ w.Holds after j.snapshot := by
  obtain ⟨after, hrewrite, hafter⟩ := w.rewrite h j.snapshot (Journal.seq_snapshot_lt hseq)
  refine ⟨after, ?_, hafter⟩
  rw [Journal.compact, hrewrite]
  rfl

/-- Opening a log replays what is offered and rewrites it. -/
theorem openOn {m : medium} (h : w.Offers m entries)
    (hseq : ∀ e ∈ entries, e.seq < Record.seqBound) (compactAfter : Nat) :
    ∃ handle after, OpenLog.openOn compactAfter m =
        (.ok ⟨(Journal.ofEntries compactAfter entries).compacted, handle⟩, after) ∧
      w.Holds (handle, after) (Journal.ofEntries compactAfter entries).snapshot := by
  obtain ⟨handle, attached, hattach, hfinds⟩ := w.attach h
  have hlast : (Journal.ofEntries compactAfter entries).lastSeq < Record.seqBound :=
    Journal.highestSeq_lt (by decide) hseq
  obtain ⟨⟨handle', after⟩, hcompact, hafter⟩ := w.compact hfinds hlast
  -- the log is rewritten right after it was read, whatever its text looked like
  refine ⟨handle', after, ?_, hafter⟩
  simp only [OpenLog.openOn, hattach, Journal.load, w.load hfinds, hcompact]

theorem record (h : w.Holds store entries) {ops : List DurableOp}
    (hfits : ops ≠ [] → j.lastSeq + 1 < Record.seqBound) :
    ∃ after, j.record ops store = (.ok (), (j.recorded ops entries).1, after) ∧
      w.Holds after (j.recorded ops entries).2 := by
  cases ops with
  | nil => exact ⟨store, rfl, h⟩
  | cons op ops =>
    have hops : op :: ops ≠ [] := List.cons_ne_nil op ops
    obtain ⟨appended, happend, hholds⟩ :=
      w.append h { seq := j.lastSeq + 1, ops := op :: ops } (hfits hops)
    simp only [Journal.recorded, if_neg hops, Journal.record, happend, Journal.compactIfDue]
    -- the entry is in the log; what is left is whether rewriting is due
    split
    next =>
      obtain ⟨after, hcompact, hafter⟩ :=
        w.compact (j := j.appending (op :: ops)) (w.finds_of_holds hholds) (hfits hops)
      rw [hcompact]
      exact ⟨after, rfl, hafter⟩
    next => exact ⟨appended, rfl, hholds⟩

end Faultless

/-! ## §2. Both media -/

/-- A log in memory that refuses nothing is faultless. -/
def MemoryLog.faultless : Faultless MemoryLog Unit where
  Offers m entries := m = { entries }
  Finds store entries := store.2 = { entries }
  Holds store entries := store.2 = { entries }
  attach := fun h => ⟨(), _, rfl, h⟩
  load := by
    rintro ⟨_, _⟩ entries rfl
    rfl
  rewrite := by
    rintro ⟨_, _⟩ entries rfl entries' -
    exact ⟨((), { entries := entries' }), rfl, rfl⟩
  append := by
    rintro ⟨_, _⟩ entries rfl e -
    exact ⟨((), { entries := entries ++ [e] }), rfl, rfl⟩
  sync := by
    rintro ⟨_, _⟩ entries rfl
    rfl
  finds_of_holds := fun h => h
  detach := fun h => h

namespace JournalDirectory

/-- A directory in which a log with this text can be opened, once the directory was made. -/
def Offers (m : JournalDirectory) (text : Option (List Char)) : Prop :=
  ∃ d number, m.disk.makeDirectories m.path = (.ok (), d) ∧ d.Offers m.path number text

/-- An open log with this text, in the directory at a path. -/
def Holds (path : String) (store : JournalFile × JournalDirectory) (text : Option (List Char)) :
    Prop :=
  store.2.path = path ∧ store.1.directory = path ∧
    ∃ number, store.1.Holds store.2.disk number text

theorem readText_of_holds {path : String} {f : JournalFile} {m : JournalDirectory}
    {text : List Char} (h : Holds path (f, m) (some text)) :
    m.disk.readText (JournalFile.pathIn path) = .ok (String.ofList text) := by
  obtain ⟨-, hdirectory, number, hholds⟩ := h
  rw [← hdirectory]
  exact JournalFile.readText_encode hholds.read

/-- A file in a directory that can host it is faultless, whatever text it has at first. -/
def faultless (path : String) : Faultless JournalDirectory JournalFile where
  Offers m entries := m.path = path ∧
    ∃ text, m.Offers text ∧ Lines.parse (text.getD []) = .ok entries
  Finds store entries := ∃ text, Holds path store text ∧ Lines.parse (text.getD []) = .ok entries
  Holds store entries := Holds path store (some (Lines.fileText entries)) ∧
    ∀ e ∈ entries, e.seq < Record.seqBound
  attach := by
    rintro m entries ⟨rfl, text, ⟨d, number, hmake, hoffers⟩, hparse⟩
    obtain ⟨f, after, hacquire, hdirectory, hholds⟩ :=
      JournalFile.acquire_of_offers hmake hoffers m.claimant
    refine ⟨f, { m with disk := after }, ?_, text, ⟨rfl, hdirectory, number, hholds⟩, hparse⟩
    show m.acquire = _
    rw [acquire, hacquire]
  load := by
    rintro ⟨f, m⟩ entries ⟨text, ⟨-, -, number, hholds⟩, hparse⟩
    have hload : f.load m.disk = .ok entries := hholds.load.trans hparse
    show m.outcome (f.load m.disk, f, m.disk) = _
    rw [hload]
    rfl
  rewrite := by
    rintro ⟨f, m⟩ entries ⟨text, ⟨rfl, hdirectory, number, hholds⟩, -⟩ entries' hseq
    obtain ⟨f', after, hrewrite, hsame, hafter⟩ := hholds.rewrite entries'
    refine ⟨(f', { m with disk := after }), ?_, ⟨rfl, hsame.trans hdirectory, number, hafter⟩,
      hseq⟩
    show m.outcome (f.rewrite entries' m.disk) = _
    rw [hrewrite]
    rfl
  append := by
    rintro ⟨f, m⟩ entries ⟨⟨rfl, hdirectory, number, hholds⟩, hseq⟩ e he
    obtain ⟨f', after, happend, hsame, hafter⟩ := hholds.append_fileText e
    refine ⟨(f', { m with disk := after }), ?_, ⟨rfl, hsame.trans hdirectory, number, hafter⟩, ?_⟩
    · show m.outcome (f.append e m.disk) = _
      rw [happend]
      rfl
    · exact List.forall_mem_append.2 ⟨hseq, List.forall_mem_singleton.2 he⟩
  sync := fun _ => rfl
  finds_of_holds := by
    rintro store entries ⟨hholds, hseq⟩
    exact ⟨_, hholds, Lines.parse_fileText hseq⟩
  detach := by
    rintro f m entries ⟨⟨rfl, hdirectory, number, hholds⟩, hseq⟩
    have hreleased := hholds.release
    rw [show f.directory = m.path from hdirectory] at hreleased
    -- the directory was made when the log was opened, and need not be made again
    exact ⟨rfl, _, ⟨_, number, hreleased.hosts.makeDirectories, hreleased⟩,
      Lines.parse_fileText hseq⟩

end JournalDirectory

/-! ## §3. Steps on a faultless medium -/

namespace LogSession

section

variable {medium handle : Type} [Medium medium handle]

/-- What is answered to steps one after the other, and the session after them. -/
def run (s : LogSession medium handle) : List Step → List Reply × LogSession medium handle
  | [] => ([], s)
  | step :: steps =>
    let (reply, s) := s.step step
    let (replies, s) := s.run steps
    (reply :: replies, s)

/-- Every number that an entry is given is one of 64 bits. -/
def Fits (s : LogSession medium handle) : List Step → Prop
  | [] => True
  | step :: steps =>
    (∀ log ops, s.log = some log → step = .record ops → ops ≠ [] →
      log.journal.lastSeq + 1 < Record.seqBound) ∧ (s.step step).2.Fits steps

variable (w : Faultless medium handle) {m : medium} {held : handle} {j : Journal}
  {entries : List JournalEntry}

theorem step_reopen {s : LogSession medium handle} (h : w.Offers s.released entries)
    (hseq : ∀ e ∈ entries, e.seq < Record.seqBound) (compactAfter : Nat) :
    ∃ held after, s.step (.reopen compactAfter) = (.state (.ofEntries entries),
        { medium := after
          log := some ⟨(Journal.ofEntries compactAfter entries).compacted, held⟩ }) ∧
      w.Holds (held, after) (Journal.ofEntries compactAfter entries).snapshot := by
  obtain ⟨held, after, hopen, hholds⟩ := w.openOn h hseq compactAfter
  refine ⟨held, after, ?_, hholds⟩
  simp only [step, hopen]
  rfl

theorem step_record (h : w.Holds (held, m) entries) {ops : List DurableOp}
    (hfits : ops ≠ [] → j.lastSeq + 1 < Record.seqBound) :
    ∃ held' after, step { medium := m, log := some ⟨j, held⟩ } (.record ops) =
        (.done, { medium := after, log := some ⟨(j.recorded ops entries).1, held'⟩ }) ∧
      w.Holds (held', after) (j.recorded ops entries).2 := by
  obtain ⟨⟨held', after⟩, hrecord, hholds⟩ := w.record h hfits
  refine ⟨held', after, ?_, hholds⟩
  simp only [step, onLog, OpenLog.record, hrecord]
  rfl

theorem step_compact (h : w.Holds (held, m) entries) (hlast : j.lastSeq < Record.seqBound) :
    ∃ held' after, step { medium := m, log := some ⟨j, held⟩ } .compact =
        (.done, { medium := after, log := some ⟨j.compacted, held'⟩ }) ∧
      w.Holds (held', after) j.snapshot := by
  obtain ⟨⟨held', after⟩, hcompact, hholds⟩ := w.compact (w.finds_of_holds h) hlast
  refine ⟨held', after, ?_, hholds⟩
  simp only [step, onLog, OpenLog.compact, hcompact]
  rfl

theorem step_sync (h : w.Holds (held, m) entries) :
    step { medium := m, log := some ⟨j, held⟩ } .sync =
      (.done, { medium := m, log := some ⟨j, held⟩ }) := by
  simp only [step, onLog, OpenLog.sync, w.sync h]
  rfl

end

/-! ## §4. Sessions alike -/

variable {medium handle medium' handle' : Type} [Medium medium handle] [Medium medium' handle']

/-- Sessions on two faultless media with the same entries, in which the same is known of them. -/
inductive Alike (w : Faultless medium handle) (w' : Faultless medium' handle') :
    LogSession medium handle → LogSession medium' handle' → Prop
  | closed {m : medium} {m' : medium'} {entries : List JournalEntry} (h : w.Offers m entries)
      (h' : w'.Offers m' entries) (hseq : ∀ e ∈ entries, e.seq < Record.seqBound) :
      Alike w w' { medium := m } { medium := m' }
  | opened {m : medium} {m' : medium'} {held : handle} {held' : handle'} {j : Journal}
      {entries : List JournalEntry} (h : w.Holds (held, m) entries)
      (h' : w'.Holds (held', m') entries) (hlast : j.lastSeq < Record.seqBound)
      (hseq : ∀ e ∈ entries, e.seq < Record.seqBound) :
      Alike w w' { medium := m, log := some ⟨j, held⟩ } { medium := m', log := some ⟨j, held'⟩ }

namespace Alike

variable {w : Faultless medium handle} {w' : Faultless medium' handle'}
  {s : LogSession medium handle} {s' : LogSession medium' handle'}

/-- What the two sessions know of their logs is the same. -/
theorem journal_eq (h : Alike w w' s s') :
    s.log.map OpenLog.journal = s'.log.map OpenLog.journal := by
  cases h with
  | closed => rfl
  | opened => rfl

/-- With nobody holding the logs they offer the same entries. -/
theorem released (h : Alike w w' s s') :
    ∃ entries, w.Offers s.released entries ∧ w'.Offers s'.released entries ∧
      ∀ e ∈ entries, e.seq < Record.seqBound := by
  cases h with
  | closed h h' hseq => exact ⟨_, h, h', hseq⟩
  | opened h h' _ hseq => exact ⟨_, w.detach h, w'.detach h', hseq⟩

/-- Opening the logs: the same answer, still alike, and both are open. -/
theorem reopen (h : Alike w w' s s') (compactAfter : Nat) :
    (s.step (.reopen compactAfter)).1 = (s'.step (.reopen compactAfter)).1 ∧
      Alike w w' (s.step (.reopen compactAfter)).2 (s'.step (.reopen compactAfter)).2 ∧
      (s'.step (.reopen compactAfter)).2.log.isSome := by
  obtain ⟨entries, hoffers, hoffers', hseq⟩ := h.released
  obtain ⟨held, after, hstep, hholds⟩ := step_reopen w hoffers hseq compactAfter
  obtain ⟨held', after', hstep', hholds'⟩ := step_reopen w' hoffers' hseq compactAfter
  have hlast : (Journal.ofEntries compactAfter entries).lastSeq < Record.seqBound :=
    Journal.highestSeq_lt (by decide) hseq
  rw [hstep, hstep']
  exact ⟨rfl, .opened hholds hholds' (Nat.max_lt.2 ⟨hlast, by decide⟩)
    (Journal.seq_snapshot_lt hlast), rfl⟩

/-- One step: the same answer, still alike, and a log that is open stays open. -/
theorem step (h : Alike w w' s s') (step : Step)
    (hfits : ∀ log ops, s'.log = some log → step = .record ops → ops ≠ [] →
      log.journal.lastSeq + 1 < Record.seqBound) :
    (s.step step).1 = (s'.step step).1 ∧ Alike w w' (s.step step).2 (s'.step step).2 ∧
      (s'.log.isSome → (s'.step step).2.log.isSome) := by
  cases step with
  | reopen compactAfter =>
    obtain ⟨hreply, halike, hopen⟩ := h.reopen compactAfter
    exact ⟨hreply, halike, fun _ => hopen⟩
  | record ops =>
    cases h with
    | closed h h' hseq => exact ⟨rfl, .closed h h' hseq, id⟩
    | @opened m m' held held' j entries h h' hlast hseq =>
      have hnext : ops ≠ [] → j.lastSeq + 1 < Record.seqBound := hfits ⟨j, held'⟩ ops rfl rfl
      obtain ⟨_, _, hstep, hholds⟩ := step_record w h hnext
      obtain ⟨_, _, hstep', hholds'⟩ := step_record w' h' hnext
      obtain ⟨hlast, hseq⟩ := Journal.recorded_lt hlast hseq hnext
      rw [hstep, hstep']
      exact ⟨rfl, .opened hholds hholds' hlast hseq, fun _ => rfl⟩
  | compact =>
    cases h with
    | closed h h' hseq => exact ⟨rfl, .closed h h' hseq, id⟩
    | opened h h' hlast hseq =>
      obtain ⟨_, _, hstep, hholds⟩ := step_compact w h hlast
      obtain ⟨_, _, hstep', hholds'⟩ := step_compact w' h' hlast
      rw [hstep, hstep']
      exact ⟨rfl, .opened hholds hholds' (Nat.max_lt.2 ⟨hlast, by decide⟩)
        (Journal.seq_snapshot_lt hlast), fun _ => rfl⟩
  | sync =>
    cases h with
    | closed h h' hseq => exact ⟨rfl, .closed h h' hseq, id⟩
    | opened h h' hlast hseq =>
      rw [step_sync w h, step_sync w' h']
      exact ⟨rfl, .opened h h' hlast hseq, fun _ => rfl⟩
  | state =>
    cases h with
    | closed h h' hseq => exact ⟨rfl, .closed h h' hseq, id⟩
    | opened h h' hlast hseq => exact ⟨rfl, .opened h h' hlast hseq, fun _ => rfl⟩

/-- Any number of steps: the same answers, and still alike.  Once the logs were opened they are
open. -/
theorem run (h : Alike w w' s s') {steps : List Step} (hfits : s'.Fits steps) :
    (s.run steps).1 = (s'.run steps).1 ∧ Alike w w' (s.run steps).2 (s'.run steps).2 ∧
      (s'.log.isSome ∨ (∃ compactAfter, .reopen compactAfter ∈ steps) →
        (s'.run steps).2.log.isSome) := by
  -- by the steps: each keeps the sessions alike, so the next one is answered alike
  induction steps generalizing s s' with
  | nil => exact ⟨rfl, h, fun hopen => hopen.elim id nofun⟩
  | cons step steps ih =>
    obtain ⟨hreply, halike, hstays⟩ := h.step step hfits.1
    obtain ⟨hreplies, hafter, hopen⟩ := ih halike hfits.2
    refine ⟨?_, hafter, ?_⟩
    · show (s.step step).1 :: ((s.step step).2.run steps).1 =
        (s'.step step).1 :: ((s'.step step).2.run steps).1
      rw [hreply, hreplies]
    · rintro (hsome | ⟨compactAfter, hmem⟩)
      · exact hopen (Or.inl (hstays hsome))
      · rcases List.mem_cons.1 hmem with rfl | hmem
        · exact hopen (Or.inl (h.reopen compactAfter).2.2)
        · exact hopen (Or.inr ⟨compactAfter, hmem⟩)

end Alike

/-! ## §5. A file and a list -/

/-- While the logs are open, the file holds the lines of the entries in memory. -/
theorem Alike.readText {path : String} {s : LogSession JournalDirectory JournalFile}
    {s' : LogSession MemoryLog Unit}
    (h : Alike (JournalDirectory.faultless path) MemoryLog.faultless s s')
    (hopen : s'.log.isSome) :
    s.medium.disk.readText (JournalFile.pathIn path) =
      .ok (String.ofList (Lines.fileText s'.medium.entries)) := by
  cases h with
  | closed => cases hopen
  | @opened m m' held held' j entries h h' =>
    have hmemory : m' = { entries } := h'
    have hfile : JournalDirectory.Holds path (held, m) (some (Lines.fileText entries)) := h.1
    rw [hmemory]
    exact JournalDirectory.readText_of_holds hfile

/-- A session on a log in a file and one on a log in memory with the entries that the file has at
first, if it is there.  No matter what is done in them, the same is answered, and the same is known
of the logs.  From the first opening on the file holds the lines of the entries in memory and
nothing else. -/
theorem file_answers_as_memory {m : JournalDirectory} {text : Option (List Char)}
    {entries : List JournalEntry} (hoffers : m.Offers text)
    (hparse : Lines.parse (text.getD []) = .ok entries) {steps : List Step}
    (hfits : Fits { medium := ({ entries } : MemoryLog) } steps) :
    let file := run { medium := m } steps
    let memory := run { medium := ({ entries } : MemoryLog) } steps
    file.1 = memory.1 ∧
    file.2.log.map OpenLog.journal = memory.2.log.map OpenLog.journal ∧
    ((∃ compactAfter, .reopen compactAfter ∈ steps) → memory.2.log.isSome ∧
      file.2.medium.disk.readText (JournalFile.pathIn m.path) =
        .ok (String.ofList (Lines.fileText memory.2.medium.entries))) := by
  intro file memory
  have hfirst : Alike (JournalDirectory.faultless m.path) MemoryLog.faultless { medium := m }
      { medium := { entries } } :=
    .closed ⟨rfl, text, hoffers, hparse⟩ rfl (Lines.seq_lt_of_parse hparse)
  obtain ⟨hreplies, halike, hopen⟩ := hfirst.run hfits
  refine ⟨hreplies, halike.journal_eq, ?_⟩
  intro hreopen
  have hsome := hopen (Or.inr hreopen)
  exact ⟨hsome, halike.readText hsome⟩

/-- A log whose last line is torn, and a blank line before it. -/
def tornText : List Char :=
  Lines.fileText [JournalFile.accented] ++ '\n' :: (Lines.entryText JournalFile.accented).take 9

/-- A directory with a torn log. -/
def tornDirectory : JournalDirectory where
  disk := JournalFile.diskOf (JournalFile.encode tornText)
  path := "/"
  claimant := { pid := 1, now := 0 }

theorem offers_tornDirectory : tornDirectory.Offers (some tornText) :=
  have hoffers := JournalFile.offers_diskOf tornText
  ⟨_, Disk.root, hoffers.hosts.makeDirectories, hoffers⟩

theorem file_answers_as_memory_of_torn :
    tornDirectory.Offers (some tornText) ∧
    Lines.parse tornText = .ok [JournalFile.accented] ∧
    Fits { medium := ({ entries := [JournalFile.accented] } : MemoryLog) }
      [.reopen 2, .record [.deleteQueue "é"], .reopen 1] ∧
    let steps : List Step := [.reopen 2, .record [.deleteQueue "é"], .reopen 1]
    let file := run { medium := tornDirectory } steps
    let memory := run { medium := ({ entries := [JournalFile.accented] } : MemoryLog) } steps
    file.1 = memory.1 ∧
    file.2.log.map OpenLog.journal = memory.2.log.map OpenLog.journal ∧
    ((∃ compactAfter, .reopen compactAfter ∈ steps) → memory.2.log.isSome ∧
      file.2.medium.disk.readText (JournalFile.pathIn tornDirectory.path) =
        .ok (String.ofList (Lines.fileText memory.2.medium.entries))) := by
  have hparse : Lines.parse tornText = .ok [JournalFile.accented] := by decide +kernel
  have hfits : Fits { medium := ({ entries := [JournalFile.accented] } : MemoryLog) }
      [.reopen 2, .record [.deleteQueue "é"], .reopen 1] := by
    refine ⟨nofun, ?_, nofun, trivial⟩
    intro log ops hlog _ _
    cases hlog
    decide
  exact ⟨offers_tornDirectory, hparse, hfits,
    file_answers_as_memory offers_tornDirectory hparse hfits⟩

end LogSession

end BrokerTopology
