/-
  BrokerTopology.Proofs.AllOrNothing — an operation that fails has not
  happened.

  An operation fails because the broker is shut down, because it is
  refused, or because the log does not take what it comes to.  The first
  two change nothing.  In the last case everything is planned already,
  a cascade to its end, but nothing of it holds before it is recorded,
  and a log in memory that refuses an entry is left as it is.

  What may change is the counter of generated names, which is drawn from
  before the operation is recorded and never goes back.

  Main statements:
    * `Broker.perform_failed` — one operation that fails.
    * `Server.failed_operation_changes_nothing` — the same of every
      request that is one operation, in every run.
-/
import BrokerTopology.Proofs.HostRuns
import BrokerTopology.Proofs.MemoryJournal

namespace BrokerTopology

theorem NameGenerator.Advances.eq_withCounter {g g' : NameGenerator} (h : g.Advances g') :
    g' = { g with counter := g'.counter } := by
  obtain ⟨nonce, counter⟩ := g
  obtain ⟨nonce', counter'⟩ := g'
  obtain rfl : nonce' = nonce := h.1
  rfl

namespace Broker

/-! ## §1. One operation -/

/-- The same broker with another counter of generated names. -/
def withNameCounter (b : Broker Unit) (counter : Nat) : Broker Unit :=
  { b with
    live := b.live.withTopology
      (b.live.topology.withGenerator { b.live.topology.registry.names with counter }) }

/-- Two brokers that differ in the counter of generated names alone, if at all, and not
backwards. -/
def SameButNames (b b' : Broker Unit) : Prop :=
  ∃ counter, b.live.topology.registry.names.counter ≤ counter ∧ b' = b.withNameCounter counter

theorem SameButNames.refl (b : Broker Unit) : b.SameButNames b :=
  ⟨b.live.topology.registry.names.counter, Nat.le_refl _, rfl⟩

/-- Of a change that is not recorded only the names that it drew stay used up. -/
theorem sameButNames_withNames {b : Broker Unit} {live : LiveState}
    (h : b.live.topology.registry.names.Advances live.topology.registry.names) :
    b.SameButNames { b with live := b.live.withNames live } := by
  refine ⟨live.topology.registry.names.counter, h.2, ?_⟩
  unfold withNameCounter LiveState.withNames
  rw [h.eq_withCounter]
  rfl

theorem perform_failed {α : Type} {d : Decision α} (hd : d.Stepwise) {b : Broker Unit}
    {m : MemoryLog} (h : b.live.topology.WellFormed) {e : Refusal}
    (hfailed : (b.perform d m).1 = .error e) :
    (b.perform d m).2.2 = m ∧ b.SameButNames (b.perform d m).2.1 := by
  have hperformed := performed d b m
  generalize b.perform d m = outcome at hperformed hfailed ⊢
  cases hperformed with
  | closed => exact ⟨rfl, .refl b⟩
  | refused => exact ⟨rfl, .refl b⟩
  | @unrecorded log log' change e m' hlog hchange hrecord =>
    rcases log.record_cases change.ops m with ⟨e', heq⟩ | ⟨_, _, heq, -⟩
    · rw [heq] at hrecord
      injection hrecord with _ hrecord
      injection hrecord with hlog' hm'
      subst hlog' hm'
      refine ⟨rfl, ?_⟩
      rw [← hlog]
      exact sameButNames_withNames (hd _ _ h hchange).advances
    · rw [heq] at hrecord
      cases hrecord
  | recorded => cases hfailed

theorem compact_failed {b : Broker Unit} {m : MemoryLog} {e : Refusal}
    (hfailed : (b.compact m).1 = .error e) : (b.compact m).2 = (b, m) := by
  unfold compact at hfailed ⊢
  split
  next => rfl
  next log hlog =>
    rw [hlog] at hfailed
    rcases log.compact_cases m with ⟨e', heq⟩ | heq
    · simp only [heq]
      rw [← hlog]
    · simp only [heq] at hfailed
      cases hfailed

end Broker

/-! ## §2. Requests -/

/-- A consumer that is not started has not joined. -/
theorem Connection.consume_failed {c : Connection} {number : Nat} {queue : String}
    {b : Broker Unit} {m : MemoryLog} {e : Refusal}
    (hfailed : (c.consume number queue b m).1 = .error e) :
    (b.perform (LiveState.attachConsumer c.id queue) m).1 = .error e ∧
      (c.consume number queue b m).2.2 =
        (b.perform (LiveState.attachConsumer c.id queue) m).2 := by
  unfold consume at hfailed ⊢
  split
  next hperform =>
    rw [hperform] at hfailed ⊢
    injection hfailed with hfailed
    exact ⟨by rw [hfailed], rfl⟩
  next hperform =>
    rw [hperform] at hfailed
    cases hfailed

/-- A consumer that cannot be cancelled has not left. -/
theorem Connection.cancel_failed {c : Connection} {number : Nat} {tag : String}
    {b : Broker Unit} {m : MemoryLog} (h : b.live.topology.WellFormed) {e : Refusal}
    (hfailed : (c.cancel number tag b m).1 = .error e) :
    (c.cancel number tag b m).2.2.2 = m ∧ b.SameButNames (c.cancel number tag b m).2.2.1 := by
  unfold cancel at hfailed ⊢
  split
  next => exact ⟨rfl, .refl b⟩
  next consumer hfound =>
    rw [hfound] at hfailed
    replace hfailed : (leave consumer b m).1 = .error e := hfailed
    unfold leave at hfailed
    show (b.perform (LiveState.detachConsumer consumer.queue _) m).2.2 = m ∧
      b.SameButNames (b.perform (LiveState.detachConsumer consumer.queue _) m).2.1
    cases hperform : (b.perform
        (LiveState.detachConsumer consumer.queue (some consumer.incarnation)) m).1 with
    | error e' =>
      exact Broker.perform_failed (LiveState.detachConsumer_stepwise _ _) h hperform
    | ok remaining =>
      simp only [hperform] at hfailed
      cases hfailed

namespace Server

/-- Whether a request is one operation, on no connection or on a channel of one. -/
def Request.isOperation : Request → Bool
  | .operation _ | .compact | .onChannel .. | .consume .. | .cancel .. => true
  | _ => false

/-- An error that a request on a channel is answered with is that of what is done there. -/
theorem onChannel_failed {s : Server Unit} {conn : ConnectionId} {channel : Nat} {m : MemoryLog}
    {f : Connection → Outcome (Connection × Broker Unit × MemoryLog) Refusal Reply} {e : Refusal}
    (hfailed : (s.onChannel conn channel m f).1 = .error e) :
    ∃ c, (f c).1 = .error e ∧ (s.onChannel conn channel m f).2.1.broker = (f c).2.2.1 ∧
      (s.onChannel conn channel m f).2.2 = (f c).2.2.2 := by
  unfold onChannel onConnection at hfailed ⊢
  split
  next hnone =>
    rw [hnone] at hfailed
    cases hfailed
  next c hc =>
    rw [hc] at hfailed
    simp only at hfailed ⊢
    split
    next hopen =>
      rw [if_pos hopen] at hfailed
      exact ⟨c, hfailed, rfl, rfl⟩
    next hopen =>
      rw [if_neg hopen] at hfailed
      cases hfailed

theorem serve_failed {s : Server Unit} {m : MemoryLog} {q : Request}
    (h : s.broker.live.topology.WellFormed) (hq : q.isOperation = true) {e : Refusal}
    (hfailed : (s.serve m q).1 = .error e) :
    (s.serve m q).2.2 = m ∧ s.broker.SameButNames (s.serve m q).2.1.broker := by
  cases q with
  | operation op => exact Broker.perform_failed (op.stepwise _ _) h (error_of_map hfailed)
  | compact =>
    have hunchanged : (s.broker.compact m).2 = (s.broker, m) :=
      Broker.compact_failed (error_of_map hfailed)
    refine ⟨congrArg Prod.snd hunchanged, ?_⟩
    show s.broker.SameButNames (s.broker.compact m).2.1
    rw [hunchanged]
    exact .refl _
  | onChannel conn channel op =>
    obtain ⟨c, hfailed, hbroker, hm⟩ := onChannel_failed hfailed
    show (s.onChannel conn channel m _).2.2 = m ∧
      s.broker.SameButNames (s.onChannel conn channel m _).2.1.broker
    rw [hbroker, hm]
    exact Broker.perform_failed (op.stepwise _ _) h (error_of_map hfailed)
  | consume conn channel queue =>
    obtain ⟨c, hfailed, hbroker, hm⟩ := onChannel_failed hfailed
    -- a consumer that was not attached is not given a tag either, so only the attaching counts
    obtain ⟨hattach, hafter⟩ := Connection.consume_failed (error_of_map hfailed)
    show (s.onChannel conn channel m _).2.2 = m ∧
      s.broker.SameButNames (s.onChannel conn channel m _).2.1.broker
    rw [hbroker, hm]
    show (c.consume channel queue s.broker m).2.2.2 = m ∧
      s.broker.SameButNames (c.consume channel queue s.broker m).2.2.1
    rw [hafter]
    exact Broker.perform_failed (LiveState.attachConsumer_stepwise c.id queue) h hattach
  | cancel conn channel tag =>
    obtain ⟨c, hfailed, hbroker, hm⟩ := onChannel_failed hfailed
    show (s.onChannel conn channel m _).2.2 = m ∧
      s.broker.SameButNames (s.onChannel conn channel m _).2.1.broker
    rw [hbroker, hm]
    exact Connection.cancel_failed h (error_of_map hfailed)
  | _ => cases hq

/-- In every run, with a log that may refuse any call: if a request that is one operation is
answered with an error, the log is as it was, and so is the broker — every exchange and queue,
the bindings, both counts, the messages and what is known of the log — but for the counter of
generated names. -/
theorem failed_operation_changes_nothing (settings : BrokerSettings) (nonce : UInt64)
    (shared : Option Mailboxes) (log : MemoryLog) (events : List (Host.Event MemoryLog))
    {number : Nat} {s : Server Unit}
    (hs : ((Host.fresh settings nonce shared log).afterAll events).server? number = some s)
    (m : MemoryLog) {q : Request} (hq : q.isOperation = true) {e : Refusal}
    (hfailed : (s.serve m q).1 = .error e) :
    (s.serve m q).2.2 = m ∧
      ∃ counter, s.broker.live.topology.registry.names.counter ≤ counter ∧
        (s.serve m q).2.1.broker = s.broker.withNameCounter counter :=
  serve_failed (((Host.sound_fresh settings nonce shared log).afterAll events).server? hs) hq
    hfailed

/-- A queue that does not last cannot be deleted while the log does not take that an exchange
goes with it. -/
theorem failed_operation_changes_nothing_of_cascade :
    ∃ s e, ((Host.fresh {} 1 none ({} : MemoryLog)).afterAll
        [.start, .ask 0 (.operation (.declareExchange ⟨"x", .fanout, true, true⟩ false)),
          .ask 0 (.operation (.declareQueue ⟨"q", false, false, false⟩ false)),
          .ask 0 (.operation (.bind ⟨"q", "x", ""⟩))]).server? 0 = some s ∧
      (s.serve (MemoryLog.withWritesDisabled {} true)
        (.operation (.deleteQueue "q" false false))).1 = .error e ∧
      (s.serve (MemoryLog.withWritesDisabled {} true)
        (.operation (.deleteQueue "q" false false))).2.2 = .withWritesDisabled {} true := by
  obtain ⟨s, hs, hfails⟩ : ∃ s, ((Host.fresh {} 1 none ({} : MemoryLog)).afterAll
      [.start, .ask 0 (.operation (.declareExchange ⟨"x", .fanout, true, true⟩ false)),
        .ask 0 (.operation (.declareQueue ⟨"q", false, false, false⟩ false)),
        .ask 0 (.operation (.bind ⟨"q", "x", ""⟩))]).server? 0 = some s ∧
      (s.serve (MemoryLog.withWritesDisabled {} true)
        (.operation (.deleteQueue "q" false false))).1.isOk = false :=
    ⟨_, (Option.some_get (by decide +kernel)).symm, by decide +kernel⟩
  cases hresult : (s.serve (MemoryLog.withWritesDisabled {} true)
      (.operation (.deleteQueue "q" false false))).1 with
  | ok reply =>
    rw [hresult] at hfails
    cases hfails
  | error e =>
    exact ⟨s, e, hs, hresult,
      (failed_operation_changes_nothing _ _ _ _ _ hs _ rfl hresult).1⟩

end Server

end BrokerTopology
