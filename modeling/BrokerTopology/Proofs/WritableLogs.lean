/-
  BrokerTopology.Proofs.WritableLogs — a broker whose log can be written.

  An operation that was decided fails only because its log does not take
  it.  A log that takes this entry and every later one, whatever is
  rewritten in between, is writable; an operation on it is what was
  decided, and no more needs to be known of the medium.

  On any medium, writable or not, the state that a journal keeps is what
  of the topology outlives the broker: an entry that is refused changes
  neither.

  Main statements:
    * `LogStore.writable_memory`, `LogStore.writable_directory` — both
      media, as long as nothing is in the way.
    * `Broker.perform_of_canRecord` — an operation on a writable log.
    * `Server.lasting_described` — journals and topologies, in every run.
-/
import BrokerTopology.Proofs.DurablePart
import BrokerTopology.Proofs.HostRuns
import BrokerTopology.Proofs.LogFiles

namespace BrokerTopology

/-! ## §1. Stores -/

section

variable {σ : Type} [LogStore σ]

namespace LogStore

/-- No entry is refused, now or later: there is a set of states that holds this one, in which
every entry is taken, and that appending and rewriting do not leave. -/
def Writable (store : σ) : Prop :=
  ∃ P : σ → Prop, P store ∧
    (∀ s, P s → ∀ e : JournalEntry, (append e s).1 = .ok () ∧ P (append e s).2) ∧
    ∀ s, P s → ∀ entries : List JournalEntry, P (rewrite entries s).2

theorem Writable.append {store : σ} (h : Writable store) (e : JournalEntry) :
    ∃ after, LogStore.append e store = (.ok (), after) ∧ Writable after := by
  obtain ⟨P, hstore, happend, hrewrite⟩ := h
  obtain ⟨hok, hafter⟩ := happend store hstore e
  exact ⟨_, Prod.ext hok rfl, P, hafter, happend, hrewrite⟩

theorem Writable.rewrite {store : σ} (h : Writable store) (entries : List JournalEntry) :
    Writable (LogStore.rewrite entries store).2 := by
  obtain ⟨P, hstore, happend, hrewrite⟩ := h
  exact ⟨P, hrewrite store hstore entries, happend, hrewrite⟩

/-- A log in memory that does not refuse entries. -/
theorem writable_memory {m : MemoryLog} (h : m.refusals.append = none) : Writable ((), m) := by
  refine ⟨fun store => store.2.refusals.append = none, h, ?_, ?_⟩
  · rintro ⟨_, m⟩ hm e
    have hm : m.refusals.append = none := hm
    show (m.append e).1 = .ok () ∧ (m.append e).2.refusals.append = none
    rw [MemoryLog.append, hm]
    exact ⟨rfl, hm⟩
  · rintro ⟨_, m⟩ hm entries
    show (m.rewrite entries).2.refusals.append = none
    unfold MemoryLog.rewrite
    split
    next => exact hm
    next => exact hm

/-- A log file in a directory that hosts it. -/
theorem writable_directory {f : JournalFile} {m : JournalDirectory} {number : Nat}
    {entries : List JournalEntry} (h : f.Holds m.disk number (some (Lines.fileText entries))) :
    Writable (f, m) := by
  refine ⟨fun store => ∃ entries,
    store.1.Holds store.2.disk number (some (Lines.fileText entries)), ⟨entries, h⟩, ?_, ?_⟩
  · rintro ⟨f, m⟩ ⟨entries, h⟩ e
    obtain ⟨f', after, happend, -, hafter⟩ := h.append_fileText e
    show (f.append e m.disk).1 = .ok () ∧ ∃ entries, (f.append e m.disk).2.1.Holds
      (f.append e m.disk).2.2 number (some (Lines.fileText entries))
    rw [happend]
    exact ⟨rfl, _, hafter⟩
  · rintro ⟨f, m⟩ ⟨entries, h⟩ entries'
    obtain ⟨f', after, hrewrite, -, hafter⟩ := h.rewrite entries'
    show ∃ entries, (f.rewrite entries' m.disk).2.1.Holds
      (f.rewrite entries' m.disk).2.2 number (some (Lines.fileText entries))
    rw [hrewrite]
    exact ⟨_, hafter⟩

end LogStore

/-! ## §2. Journals -/

namespace Journal

theorem compactIfDue_state (j : Journal) (store : σ) :
    (j.compactIfDue store).1.state = j.state := by
  unfold compactIfDue
  split
  next => exact j.compact_state store
  next => rfl

/-- Changes are recorded and folded in, or refused and dropped. -/
theorem record_state (j : Journal) (ops : List DurableOp) (store : σ) :
    (j.record ops store).2.1.state =
      match (j.record ops store).1 with
      | .ok () => j.state.applyAll ops
      | .error _ => j.state := by
  unfold record
  split
  next => rfl
  next =>
    split
    next => rfl
    next => exact compactIfDue_state _ _

theorem compact_of_writable (j : Journal) {store : σ} (h : LogStore.Writable store) :
    LogStore.Writable (j.compact store).2.2 := by
  have hrewritten := h.rewrite j.snapshot
  unfold compact
  split
  next heq => rwa [heq] at hrewritten
  next heq => rwa [heq] at hrewritten

/-- On a writable log changes are recorded, and it stays writable. -/
theorem record_of_writable (j : Journal) (ops : List DurableOp) {store : σ}
    (h : LogStore.Writable store) :
    (j.record ops store).1 = .ok () ∧ LogStore.Writable (j.record ops store).2.2 := by
  unfold record
  split
  next => exact ⟨rfl, h⟩
  next =>
    obtain ⟨after, happend, hafter⟩ := h.append { seq := j.lastSeq + 1, ops }
    rw [happend]
    refine ⟨rfl, ?_⟩
    show LogStore.Writable ((j.appending ops).compactIfDue after).2
    unfold compactIfDue
    split
    next => exact (j.appending ops).compact_of_writable hafter
    next => exact hafter

end Journal

end

section

variable {medium handle : Type} [Medium medium handle]

namespace OpenLog

theorem record_state (log : OpenLog handle) (ops : List DurableOp) (m : medium) :
    (log.record ops m).2.1.journal.state =
      match (log.record ops m).1 with
      | .ok () => log.journal.state.applyAll ops
      | .error _ => log.journal.state :=
  log.journal.record_state ops (log.handle, m)

theorem record_of_writable {log : OpenLog handle} (ops : List DurableOp) {m : medium}
    (h : LogStore.Writable (log.handle, m)) :
    (log.record ops m).1 = .ok () ∧
      LogStore.Writable ((log.record ops m).2.1.handle, (log.record ops m).2.2) :=
  log.journal.record_of_writable ops h

end OpenLog

namespace Broker

/-! ## §3. Brokers -/

/-- A broker is open on a writable log. -/
def CanRecord (b : Broker handle) (m : medium) : Prop :=
  ∃ log, b.log = some log ∧ LogStore.Writable (log.handle, m)

/-- On a writable log an operation is what was decided. -/
theorem perform_of_canRecord {α : Type} (d : Decision α) {b : Broker handle} {m : medium}
    (h : b.CanRecord m) :
    (∃ e, d b.live = .error e ∧ b.perform d m = (.error e, b, m)) ∨
      ∃ change, d b.live = .ok change ∧ (b.perform d m).1 = .ok change.answer ∧
        (b.perform d m).2.1.live = change.live ∧
        (b.perform d m).2.1.settings = b.settings ∧
        (b.perform d m).2.1.CanRecord (b.perform d m).2.2 := by
  obtain ⟨log, hlog, hwritable⟩ := h
  have hperformed := performed d b m
  generalize b.perform d m = outcome at hperformed ⊢
  cases hperformed with
  | closed hclosed =>
    rw [hclosed] at hlog
    cases hlog
  | refused _ hd => exact Or.inl ⟨_, hd, rfl⟩
  | @unrecorded log' _ change _ _ hlog' _ hrecord =>
    obtain rfl : log' = log := Option.some.inj (hlog'.symm.trans hlog)
    have hok := (OpenLog.record_of_writable change.ops hwritable).1
    rw [hrecord] at hok
    cases hok
  | @recorded log' after change _ hlog' hd hrecord =>
    obtain rfl : log' = log := Option.some.inj (hlog'.symm.trans hlog)
    have hstays := (OpenLog.record_of_writable change.ops hwritable).2
    rw [hrecord] at hstays
    exact Or.inr ⟨change, hd, rfl, rfl, rfl, after, rfl, hstays⟩

/-- A writable log stays so until the broker is shut down. -/
theorem Calls.canRecord {before after : Broker handle × medium} (hcalls : Calls before after)
    (h : before.1.CanRecord before.2) (hopen : after.1.isClosed = false) :
    after.1.CanRecord after.2 := by
  induction hcalls with
  | refl => exact h
  | @tail middle _ hcalls hlast ih =>
    have hmiddle : middle.1.CanRecord middle.2 := by
      refine ih ?_
      by_contra hclosed
      have hlog := (hlast.closed (by simpa [isClosed] using hclosed)).1
      rw [isClosed, hlog] at hopen
      cases hopen
    cases hlast with
    | @perform _ d hd b m =>
      rcases perform_of_canRecord d hmiddle with ⟨e, -, heq⟩ | ⟨change, -, -, -, -, hcan⟩
      · rw [heq]
        exact hmiddle
      · exact hcan
    | compact b m =>
      obtain ⟨log, hlog, hwritable⟩ := hmiddle
      have hlog : b.log = some log := hlog
      unfold Broker.compact
      rw [hlog]
      exact ⟨_, rfl, log.journal.compact_of_writable hwritable⟩
    | shutdown b m =>
      rw [shutdown_eq] at hopen
      cases hopen
    | connect b m => exact hmiddle

/-! ## §4. What journals know -/

/-- The journal of a broker that is open knows what of its topology outlives it. -/
structure Described (b : Broker handle) : Prop where
  wellFormed : b.live.topology.WellFormed
  describes : ∀ log, b.log = some log → log.journal.state.Describes b.live.topology

theorem Call.described {before after : Broker handle × medium} (h : before.1.Described)
    (hcall : Call before after) : after.1.Described := by
  refine ⟨hcall.wellFormed h.wellFormed, ?_⟩
  cases hcall with
  | @perform _ d hd b m =>
    have hperformed := performed d b m
    generalize b.perform d m = outcome at hperformed ⊢
    cases hperformed with
    | closed => exact h.describes
    | refused => exact h.describes
    | @unrecorded log after change _ _ hlog _ hrecord =>
      have hstate := log.record_state change.ops m
      rw [hrecord] at hstate
      intro log' hlog'
      injection hlog' with hlog'
      subst hlog'
      obtain ⟨hexchanges, hqueues, hbindings⟩ := h.describes log hlog
      rw [hstate]
      exact ⟨hexchanges, hqueues, hbindings⟩
    | @recorded log after change _ hlog hchange hrecord =>
      have hstate := log.record_state change.ops m
      rw [hrecord] at hstate
      intro log' hlog'
      injection hlog' with hlog'
      subst hlog'
      obtain ⟨s', ⟨rfl, -⟩, hdescribes⟩ :=
        (h.describes log hlog).steps h.wellFormed (hd _ _ h.wellFormed hchange)
      rwa [hstate]
  | compact b m =>
    obtain ⟨log, heq, hstate⟩ := b.compact_eq m
    show ∀ log, (b.compact m).2.1.log = some log →
      log.journal.state.Describes (b.compact m).2.1.live.topology
    rw [heq]
    intro after hafter
    obtain ⟨before, hbefore, hsame⟩ := hstate after hafter
    rw [hsame]
    exact h.describes before hbefore
  | shutdown b m =>
    show ∀ log, (b.shutdown m).2.1.log = some log → _
    rw [b.shutdown_eq m]
    exact nofun
  | connect b m => exact h.describes

theorem Calls.described {before after : Broker handle × medium} (hcalls : Calls before after)
    (h : before.1.Described) : after.1.Described :=
  hcalls.preserves (fun b _ => b.Described) (fun _ _ hinv hcall => hcall.described hinv) h

end Broker

/-- In every run journals know what of the topologies outlives the brokers. -/
theorem Server.lasting_described :
    Server.Lasting medium fun s : Server handle => s.broker.Described where
  opened hopen := by
    obtain ⟨log, entries, hstate, rfl⟩ := Broker.openOn_log hopen
    have hclosed : log.journal.state.Closed := hstate ▸ DurableState.closed_ofEntries entries
    refine ⟨Topology.wellFormed_restore hclosed, ?_⟩
    intro log' hlog'
    obtain rfl := Option.some.inj hlog'
    exact Topology.describes_restore hclosed
  served {s} h m q := (s.serve_calls m q).described h
  mailed h _ := ⟨h.wellFormed, h.describes⟩

end

end BrokerTopology
