/-
  BrokerTopology.Proofs.FaultlessBrokers — brokers on a medium on which
  nothing fails.

  Such a medium says which entries are found on it.  A broker that is
  opened there has a journal that keeps them in step, and what it carries
  out keeps it so, as long as the numbers of the entries can be written.
  A restart takes no number: so a broker can be restarted any number of
  times, and each time the next one starts with the durable part of what
  was there.

  Main statements:
    * `Faultless.openOn_broker` — a broker can be opened.
    * `Faultless.InStep.perform` — an operation keeps its journal in step.
    * `Faultless.InStep.restartAll` — it can be restarted, again and
      again, and the last one recovers from what the first one was.
-/
import BrokerTopology.Proofs.FileSessions
import BrokerTopology.Proofs.WritableLogs

namespace BrokerTopology

/-! ## §1. The numbers of entries -/

namespace Journal

/-- Recording keeps a journal and its log in step. -/
theorem Keeps.recorded {j : Journal} {entries : List JournalEntry} (h : j.Keeps entries)
    (ops : List DurableOp) : (j.recorded ops entries).1.Keeps (j.recorded ops entries).2 := by
  unfold Journal.recorded
  split
  next => exact h
  next =>
    split
    next => exact keeps_snapshot (h.appending ops).closed
    next => exact h.appending ops

variable {σ : Type} [LogStore σ]

/-- To rewrite a log does not take numbers back. -/
theorem lastSeq_le_compactIfDue (j : Journal) (store : σ) :
    j.lastSeq ≤ (j.compactIfDue store).1.lastSeq := by
  unfold compactIfDue compact
  split
  next =>
    split
    next => exact Nat.le_refl _
    next => exact Nat.le_max_left _ _
  next => exact Nat.le_refl _

/-- Nor does recording, and changes that are recorded take one. -/
theorem lastSeq_le_record (j : Journal) (ops : List DurableOp) (store : σ) :
    j.lastSeq ≤ (j.record ops store).2.1.lastSeq ∧
      ((j.record ops store).1 = .ok () → ops ≠ [] →
        j.lastSeq + 1 ≤ (j.record ops store).2.1.lastSeq) := by
  unfold record
  split
  next => exact ⟨Nat.le_refl _, fun _ hops => absurd rfl hops⟩
  next =>
    split
    next => exact ⟨Nat.le_refl _, fun hok => by cases hok⟩
    next _ store _ =>
      have hnext : j.lastSeq + 1 ≤ ((j.appending ops).compactIfDue store).1.lastSeq :=
        (j.appending ops).lastSeq_le_compactIfDue store
      exact ⟨Nat.le_of_succ_le hnext, fun _ _ => hnext⟩

end Journal

variable {medium handle : Type} [Medium medium handle]

theorem OpenLog.lastSeq_le_record (log : OpenLog handle) (ops : List DurableOp) (m : medium) :
    log.journal.lastSeq ≤ (log.record ops m).2.1.journal.lastSeq ∧
      ((log.record ops m).1 = .ok () → ops ≠ [] →
        log.journal.lastSeq + 1 ≤ (log.record ops m).2.1.journal.lastSeq) :=
  log.journal.lastSeq_le_record ops (log.handle, m)

namespace Broker

/-- The number of the last entry that a broker knows of. -/
def lastSeq (b : Broker handle) : Nat := b.log.elim 0 fun log => log.journal.lastSeq

/-- No operation takes a number back. -/
theorem lastSeq_le_perform {α : Type} (d : Decision α) (b : Broker handle) (m : medium) :
    b.lastSeq ≤ (b.perform d m).2.1.lastSeq := by
  have hperformed := performed d b m
  generalize b.perform d m = outcome at hperformed ⊢
  cases hperformed with
  | closed => exact Nat.le_refl _
  | refused => exact Nat.le_refl _
  | @unrecorded log _ change _ _ hlog _ hrecord =>
    have hle := (log.lastSeq_le_record change.ops m).1
    rw [hrecord] at hle
    rw [lastSeq, hlog]
    exact hle
  | @recorded log _ change _ hlog _ hrecord =>
    have hle := (log.lastSeq_le_record change.ops m).1
    rw [hrecord] at hle
    rw [lastSeq, hlog]
    exact hle

end Broker

namespace Faultless

variable {w : Faultless medium handle} {b : Broker handle} {m : medium}

/-! ## §2. Brokers -/

/-- A broker has its log open, the journal and the log are in step, and the numbers given out can
be written. -/
def InStep (w : Faultless medium handle) (b : Broker handle) (m : medium) : Prop :=
  ∃ log entries, b.log = some log ∧ w.Holds (log.handle, m) entries ∧ log.journal.Keeps entries ∧
    log.journal.lastSeq < Record.seqBound

/-- A broker can be opened on whatever entries are offered. -/
theorem openOn_broker {entries : List JournalEntry} (h : w.Offers m entries)
    (hseq : ∀ e ∈ entries, e.seq < Record.seqBound) (settings : BrokerSettings) (nonce : UInt64)
    (mailboxes : Mailboxes) :
    ∃ b after, Broker.openOn settings nonce mailboxes m = (.ok b, after) ∧ w.InStep b after ∧
      b.live = ⟨.restore nonce (.ofEntries entries), mailboxes⟩ ∧
      ∀ log, b.log = some log → log.journal.state = .ofEntries entries := by
  obtain ⟨held, after, hopen, hholds⟩ := w.openOn h hseq settings.compactAfter
  have hhighest : Journal.highestSeq entries < Record.seqBound :=
    Journal.highestSeq_lt (by decide) hseq
  refine ⟨_, after, by simp only [Broker.openOn, hopen]; rfl, ⟨_, _, rfl, hholds,
    Journal.keeps_snapshot (DurableState.closed_ofEntries entries), ?_⟩, rfl, ?_⟩
  · exact Nat.max_lt.2 ⟨hhighest, by decide⟩
  · rintro log ⟨⟩
    rfl

/-- An operation that is carried out keeps the journal in step. -/
theorem InStep.perform {α : Type} (h : w.InStep b m) {d : Decision α}
    (hok : (b.perform d m).1.isOk = true)
    (hfits : (b.perform d m).2.1.lastSeq < Record.seqBound) :
    w.InStep (b.perform d m).2.1 (b.perform d m).2.2 := by
  obtain ⟨log, entries, hlog, hholds, hkeeps, -⟩ := h
  have hperformed := Broker.performed d b m
  generalize b.perform d m = outcome at hperformed hok hfits ⊢
  cases hperformed with
  | closed => cases hok
  | refused => cases hok
  | unrecorded => cases hok
  | @recorded log' _ change _ hlog' _ hrecord =>
    obtain rfl := Option.some.inj (hlog'.symm.trans hlog)
    have hnext := (log'.lastSeq_le_record change.ops m).2
    rw [hrecord] at hnext
    have hnumber : change.ops ≠ [] → log'.journal.lastSeq + 1 < Record.seqBound :=
      fun hops => Nat.lt_of_le_of_lt (hnext rfl hops) hfits
    obtain ⟨after, hok, hafter⟩ := w.record hholds hnumber
    rw [OpenLog.record, hok] at hrecord
    injection hrecord with _ hrecord
    injection hrecord with hlog hm
    subst hlog hm
    exact ⟨_, _, rfl, hafter, hkeeps.recorded change.ops, hfits⟩

/-- A broker can be restarted.  The next one starts with what the journal knows. -/
theorem InStep.restart (h : w.InStep b m) (nonce : UInt64) :
    ∃ log b' m', b.log = some log ∧ log.journal.state.Closed ∧
      b.restart nonce m = (.ok b', { b with log := none }, m') ∧ w.InStep b' m' ∧
      b'.live.topology = .restore nonce log.journal.state ∧
      ∀ log', b'.log = some log' → log'.journal.state = log.journal.state := by
  obtain ⟨log, entries, hlog, hholds, hkeeps, hlast⟩ := h
  have hshutdown : b.shutdown m = (.ok (), { b with log := none }, log.release m) := by
    simp only [Broker.shutdown, hlog, OpenLog.sync, w.sync hholds]
    rfl
  have hseq : ∀ e ∈ entries, e.seq < Record.seqBound := fun e he =>
    Nat.lt_of_le_of_lt (hkeeps.bounded e he) hlast
  obtain ⟨b', m', hopen, hstep, hlive, hstate⟩ := openOn_broker (w.detach hholds) hseq b.settings
    nonce (if b.settings.keepsMessages then b.live.mailboxes else .empty)
  rw [hkeeps.state_eq] at hlive hstate
  refine ⟨log, b', m', hlog, hkeeps.closed, ?_, hstep, congrArg LiveState.topology hlive, hstate⟩
  simp only [Broker.restart, hshutdown]
  rw [show log.release m = Medium.detach log.handle m from rfl, hopen]

end Faultless

namespace Broker

/-! ## §3. Restarts -/

/-- Restart a broker so many times, if that succeeds each time. -/
def restartAll (b : Broker handle) (m : medium) :
    List UInt64 → Outcome medium Refusal (Broker handle)
  | [] => (.ok b, m)
  | nonce :: nonces =>
    match b.restart nonce m with
    | (.error e, _, m) => (.error e, m)
    | (.ok other, _, m) => other.restartAll m nonces

end Broker

/-- However many times it is restarted, a broker is as it was, or it starts with the durable part
of what was there at first. -/
theorem Faultless.InStep.restartAll {w : Faultless medium handle} {b : Broker handle} {m : medium}
    (h : w.InStep b m) {t : Topology} (hwf : t.WellFormed)
    (hknown : ∀ log, b.log = some log → log.journal.state.Describes t)
    (nonces : List UInt64) :
    ∃ b' m', b.restartAll m nonces = (.ok b', m') ∧ w.InStep b' m' ∧
      (b' = b ∧ m' = m ∨ b'.live.topology.WellFormed ∧ b'.live.topology.Recovers t) := by
  induction nonces generalizing b m with
  | nil => exact ⟨b, m, rfl, h, Or.inl ⟨rfl, rfl⟩⟩
  | cons nonce nonces ih =>
    obtain ⟨log, b₁, m₁, hlog, hclosed, hrestart, hstep, htopology, hstate⟩ := h.restart nonce
    have hdescribes := hknown log hlog
    have hrecovers : b₁.live.topology.WellFormed ∧ b₁.live.topology.Recovers t := by
      rw [htopology]
      exact ⟨Topology.wellFormed_restore hclosed,
        Topology.recovers_restore hclosed hwf hdescribes⟩
    -- what the journal knows is the same after every restart
    obtain ⟨b', m', hall, hstep', hafter⟩ := ih hstep fun log' hlog' => by
      rw [hstate log' hlog']
      exact hdescribes
    refine ⟨b', m', ?_, hstep', Or.inr ?_⟩
    · simp only [Broker.restartAll, hrestart]
      exact hall
    · rcases hafter with ⟨rfl, -⟩ | hafter
      · exact hrecovers
      · exact hafter

end BrokerTopology
