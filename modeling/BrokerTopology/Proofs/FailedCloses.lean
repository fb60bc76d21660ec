/-
  BrokerTopology.Proofs.FailedCloses — what a connection that could not be
  closed leaves behind.

  The queues of a connection are exclusive, and were never recorded.  So
  most of them go without the log.  A queue needs it only if it is the
  last that a durable auto-delete exchange is bound to: the exchange goes
  with the queue, and that has to be recorded.

  A connection that closes deletes its queues by name, and stops at the
  first that the log keeps.  What came before is gone.  What comes after
  stays, whether it needs the log or not, with an owner that is gone.
  Which queue that is depends on the earlier ones: they may have been in
  the way of its being the last.

  Main statements:
    * `LiveState.deleteQueue_recorded_iff` — what of a deletion the log has
      to take.
    * `Connection.deleteQueues_stopped` — how deleting queues ends.
    * `Host.close_stops_at_refusal` — a connection that closes, in every
      run.
-/
import BrokerTopology.Proofs.HostRuns
import BrokerTopology.Proofs.OwnedQueues

namespace BrokerTopology

/-! ## §1. A log that takes nothing -/

section

variable {σ : Type} [LogStore σ]

namespace LogStore

/-- Every entry is refused, now and later: there is a set of states that holds this one, in which
no entry is taken, and that refusing one does not leave. -/
def Full (store : σ) : Prop :=
  ∃ P : σ → Prop, P store ∧ ∀ s, P s → ∀ e : JournalEntry,
    ∃ cause after, append e s = (.error cause, after) ∧ P after

theorem Full.append {store : σ} (h : Full store) (e : JournalEntry) :
    ∃ cause after, LogStore.append e store = (.error cause, after) ∧ Full after := by
  obtain ⟨P, hstore, hrefuses⟩ := h
  obtain ⟨cause, after, happend, hafter⟩ := hrefuses store hstore e
  exact ⟨cause, after, happend, P, hafter, hrefuses⟩

/-- A log in memory that refuses entries. -/
theorem full_memory {m : MemoryLog} {reason : String} (h : m.refusals.append = some reason) :
    Full ((), m) := by
  refine ⟨fun store => store.2.refusals.append = some reason, h, ?_⟩
  rintro ⟨_, m⟩ hm e
  refine ⟨.write (.refused reason), ((), m), ?_, hm⟩
  show MemoryLog.outcome (m.append e) = _
  rw [MemoryLog.append_of_refused hm]
  rfl

/-- A log file that was not opened for appending yet, and cannot be. -/
theorem full_directory {f : JournalFile} {m : JournalDirectory} {cause : IoError}
    (hfile : f.appendTo = none) (hdisk : m.disk.openFile f.path = .error cause) : Full (f, m) := by
  refine ⟨fun store => store = (f, m), rfl, ?_⟩
  rintro _ rfl e
  refine ⟨.write cause, (f, m), ?_, rfl⟩
  show m.outcome (f.append e m.disk) = _
  simp only [JournalFile.append, JournalFile.opened, hfile, hdisk]
  rfl

end LogStore

/-- On a full log only what comes to nothing is recorded. -/
theorem Journal.record_of_full (j : Journal) (ops : List DurableOp) {store : σ}
    (h : LogStore.Full store) :
    ((j.record ops store).1 = .ok () → ops = []) ∧ LogStore.Full (j.record ops store).2.2 := by
  unfold record
  split
  next => exact ⟨fun _ => rfl, h⟩
  next =>
    obtain ⟨cause, after, happend, hafter⟩ := h.append { seq := j.lastSeq + 1, ops }
    rw [happend]
    exact ⟨nofun, hafter⟩

end

section

variable {medium handle : Type} [Medium medium handle]

namespace Broker

variable {b : Broker handle} {m : medium}

/-- A broker is open on a full log. -/
def CannotRecord (b : Broker handle) (m : medium) : Prop :=
  ∃ log, b.log = some log ∧ LogStore.Full (log.handle, m)

theorem CannotRecord.ops_eq_nil (h : b.CannotRecord m) {log log' : OpenLog handle}
    (hlog : b.log = some log) {ops : List DurableOp} {m' : medium}
    (hrecord : log.record ops m = (.ok (), log', m')) : ops = [] := by
  obtain ⟨log, hsame, hfull⟩ := h
  obtain rfl := Option.some.inj (hlog.symm.trans hsame)
  exact (log.journal.record_of_full ops hfull).1 (congrArg Prod.fst hrecord)

/-- On its errands a connection leaves the broker as open as it was. -/
theorem Errands.isClosed {before after : Broker handle × medium} (h : Errands before after) :
    after.1.isClosed = before.1.isClosed := by
  induction h with
  | refl => rfl
  | tail _ hlast ih =>
    rw [← ih]
    cases hlast with
    | join | leave | release => exact (perform_rest _ _ _).2.2

/-- A full log stays so, whatever is asked of the broker. -/
theorem CannotRecord.perform {α : Type} (d : Decision α) (h : b.CannotRecord m) :
    (b.perform d m).2.1.CannotRecord (b.perform d m).2.2 := by
  obtain ⟨log, hlog, hfull⟩ := h
  have hperformed := performed d b m
  generalize b.perform d m = outcome at hperformed ⊢
  have hstays : ∀ {before after : OpenLog handle} {ops : List DurableOp} {m' : medium}
      {result : Except JournalError Unit}, b.log = some before →
      before.record ops m = (result, after, m') → LogStore.Full (after.handle, m') := by
    intro before after ops m' result hbefore hrecord
    obtain rfl := Option.some.inj (hlog.symm.trans hbefore)
    have hstays := (log.journal.record_of_full ops hfull).2
    have hstore : (log.journal.record ops (log.handle, m)).2.2 = (after.handle, m') :=
      congrArg (fun outcome => (outcome.2.1.handle, outcome.2.2)) hrecord
    rwa [hstore] at hstays
  cases hperformed with
  | closed => exact ⟨log, hlog, hfull⟩
  | refused => exact ⟨log, hlog, hfull⟩
  | unrecorded hbefore _ hrecord => exact ⟨_, rfl, hstays hbefore hrecord⟩
  | recorded hbefore _ hrecord => exact ⟨_, rfl, hstays hbefore hrecord⟩

theorem CannotRecord.errands {before after : Broker handle × medium}
    (h : before.1.CannotRecord before.2) (herrands : Errands before after) :
    after.1.CannotRecord after.2 := by
  induction herrands with
  | refl => exact h
  | tail _ hlast ih =>
    cases hlast with
    | join | leave | release => exact ih.perform _

end Broker

end

/-! ## §2. What of a deletion is recorded -/

namespace Topology

/-- What a queue strands is what is bound to it alone. -/
theorem strands_queue (t : Topology) (name x : String) :
    t.strands (.queue name) x = t.binds (· == name) x := rfl

/-- Whether a durable auto-delete exchange has bindings, and all of them to one queue.  It goes
with the queue, and the log has to take that. -/
def needsRecord (t : Topology) (name : String) : Bool :=
  t.registry.exchangeList.any fun x =>
    x.definition.durable && t.binds (· == name) x.definition.name

theorem WellFormed.needsRecord_iff {t : Topology} (h : t.WellFormed) {name : String} :
    t.needsRecord name = true ↔ ∃ x record, t.registry.exchange? x = some record ∧
      record.definition.durable = true ∧ t.binds (· == name) x = true := by
  simp only [needsRecord, List.any_eq_true, Bool.and_eq_true, Registry.exchangeList,
    NameMap.mem_values]
  constructor
  · rintro ⟨record, ⟨x, hx⟩, hdurable, hbinds⟩
    rw [(h.exchange_filed x record hx).1] at hbinds
    exact ⟨x, record, hx, hdurable, hbinds⟩
  · rintro ⟨x, record, hx, hdurable, hbinds⟩
    refine ⟨record, ⟨x, hx⟩, hdurable, ?_⟩
    rwa [(h.exchange_filed x record hx).1]

end Topology

namespace LiveState

variable {s s' s'' : LiveState} {conn : ConnectionId} {name : String} {change : Change Nat}

/-- Of the deletion of an exclusive queue the log has to take what exchanges go with it. -/
theorem deleteQueue_recorded_iff (hwf : s.topology.WellFormed)
    (howns : s.topology.owns conn name = true)
    (hd : deleteQueue conn name false false s = .ok change) :
    change.ops ≠ [] ↔ s.topology.needsRecord name = true := by
  obtain ⟨q, hq, howner⟩ := Topology.owns_iff.1 howns
  have hexclusive : q.definition.exclusive = true := by
    refine (hwf.owned_iff_exclusive name q hq).1 ?_
    rw [howner]
    rfl
  obtain ⟨hname, rfl⟩ := deleteQueue_ok hd
  have hplans := Cascade.plans_removingQueue hwf hname
  obtain ⟨gone, -, hgone, hremovals⟩ := hplans.removals_eq
  have hself : s.topology.recordOf (.queue name) = none := by
    simp [Topology.recordOf, hq, QueueDef.persistent, hexclusive]
  rw [carryOut_ops, hplans.ops_eq, hremovals, List.filterMap_cons_none hself, hwf.needsRecord_iff]
  simp only [ne_eq, List.filterMap_eq_nil_iff, List.forall_mem_map, not_forall, hgone]
  constructor
  · rintro ⟨x, ⟨hstrands, -⟩, hrecord⟩
    cases hx : s.topology.registry.exchange? x with
    | none => simp [Topology.recordOf, hx] at hrecord
    | some record =>
      refine ⟨x, record, hx, by simpa [Topology.recordOf, hx] using hrecord, ?_⟩
      rwa [Topology.strands_queue] at hstrands
  · rintro ⟨x, record, hx, hdurable, hbinds⟩
    refine ⟨x, ⟨?_, by simp⟩, by simp [Topology.recordOf, hx, hdurable]⟩
    rwa [Topology.strands_queue]

/-! ## §3. Queues deleted up to a refusal -/

/-- How deleting queues one after the other ends: some are gone and the others left, and the first
of those, if there is any, is one that the log kept. -/
structure Stopped (before after : LiveState) (released left : List String)
    (result : Except Refusal Unit) : Prop where
  without : after.WithoutQueues before released.contains
  finished : left = [] → result = .ok ()
  refused : ∀ name more, left = name :: more →
    after.topology.needsRecord name = true ∧ ∃ cause, result = .error (.journal cause)

/-- None of the queues, once those before it are removed, has anything for the log to take. -/
def Unrecorded (before : LiveState) (queues : List String) : Prop :=
  ∀ done name more, queues = done ++ name :: more → ∃ s : LiveState,
    s.WithoutQueues before done.contains ∧ s.topology.needsRecord name = false

theorem Unrecorded.nil (s : LiveState) : s.Unrecorded [] :=
  fun _ _ _ heq => absurd heq.symm (List.append_ne_nil_of_right_ne_nil _ (List.cons_ne_nil _ _))

theorem Unrecorded.cons {queues : List String} (hwf : s.topology.WellFormed)
    (hname : s.topology.needsRecord name = false) (h : s'.WithoutQueues s (· == name))
    (hqueues : s'.Unrecorded queues) : s.Unrecorded (name :: queues) := by
  intro done other more heq
  cases done with
  | nil =>
    injection heq with heq
    exact ⟨s, .refl hwf, heq ▸ hname⟩
  | cons first done =>
    injection heq with hfirst heq
    obtain ⟨s'', hs'', hother⟩ := hqueues done other more heq
    exact ⟨s'', hfirst ▸ h.cons hs'' hwf, hother⟩

/-- The owner of queues keeps those that are left. -/
theorem Stopped.owns_eq {released left : List String} {result : Except Refusal Unit}
    (h : Stopped s s' released left result) (hnodup : (released ++ left).Nodup)
    (howns : (released ++ left).contains = s.topology.owns conn) :
    s'.topology.owns conn = left.contains := by
  funext name
  rw [h.without.topology.owns, ← howns, List.contains_append]
  cases hreleased : released.contains name with
  | false => rfl
  | true =>
    have hother : name ∉ left :=
      List.disjoint_of_nodup_append hnodup (List.contains_iff_mem.1 hreleased)
    rw [List.contains_eq_mem, decide_eq_false hother]
    rfl

end LiveState

namespace Connection

open Broker LiveState

variable {medium handle : Type} [Medium medium handle] {conn : ConnectionId}

/-- The queues of a connection are deleted up to the first that the log keeps; on a full log that
is the first that has something for the log to take. -/
theorem deleteQueues_stopped {queues : List String} {b : Broker handle} {m : medium}
    (hopen : b.isClosed = false) (hwf : b.live.topology.WellFormed) (hnodup : queues.Nodup)
    (howned : ∀ name ∈ queues, b.live.topology.owns conn name = true) :
    ∃ released left, queues = released ++ left ∧
      Stopped b.live (deleteQueues conn b m queues).2.1.live released left
        (deleteQueues conn b m queues).1 ∧
      (b.CannotRecord m → b.live.Unrecorded released) := by
  induction queues generalizing b m with
  | nil =>
    exact ⟨[], [], rfl, ⟨.refl hwf, fun _ => rfl, by simp⟩, fun _ => .nil _⟩
  | cons name queues ih =>
    obtain ⟨hnew, hnodup⟩ := List.nodup_cons.1 hnodup
    obtain ⟨hname, hothers⟩ := List.forall_mem_cons.1 howned
    have hstays := fun h : b.CannotRecord m => h.perform (deleteQueue conn name false false)
    obtain ⟨change, hchange, hwithout, houtcome⟩ := perform_deleteQueue_of_owns m hopen hwf hname
    have hrecorded := deleteQueue_recorded_iff hwf hname hchange
    unfold deleteQueues
    rcases houtcome with ⟨_, _, cause, _, -, hrecord, hperform⟩ |
      ⟨_, after, _, hlog, hrecord, hperform⟩
    · -- what was refused was not empty, and nothing came of it
      rw [hperform]
      have hneeds : b.live.topology.needsRecord name = true := by
        refine hrecorded.1 fun hops => ?_
        rw [hops, OpenLog.record_nil] at hrecord
        cases hrecord
      refine ⟨[], name :: queues, rfl, ⟨.refl hwf, by simp, ?_⟩, fun _ => .nil _⟩
      rintro _ _ ⟨⟩
      exact ⟨hneeds, cause, rfl⟩
    · rw [hperform] at hstays ⊢
      obtain ⟨released, left, rfl, hstopped, hunrecorded⟩ :=
        ih (b := { b with live := change.live, log := some after }) rfl hwithout.wellFormed
          hnodup (hwithout.owns_others hnew hothers)
      refine ⟨name :: released, left, rfl, ⟨hwithout.cons hstopped.without hwf, hstopped.finished,
        hstopped.refused⟩, fun hcannot => ?_⟩
      have hneeds : b.live.topology.needsRecord name = false := by
        rw [← Bool.not_eq_true, ← hrecorded, not_not]
        exact hcannot.ops_eq_nil hlog hrecord
      exact .cons hwf hneeds hwithout (hunrecorded (hstays hcannot))

/-- How closing a connection ends: it owns some queues once its channels are closed, by name, and
of those it has released the first ones and still owns the others. -/
structure Closes (c : Connection) (b : Broker handle) (m : medium) (after : LiveState)
    (released left : List String) (result : Except Refusal Unit) : Prop where
  owned : (closeChannels c b m c.channels.keys).2.1.live.topology.registry.ownedBy c.id =
    released ++ left
  stopped : (closeChannels c b m c.channels.keys).2.1.live.Stopped after released left result
  owns : after.topology.owns c.id = left.contains
  unrecorded : b.CannotRecord m →
    (closeChannels c b m c.channels.keys).2.1.live.Unrecorded released

theorem close_closes (c : Connection) {b : Broker handle} {m : medium}
    (hopen : b.isClosed = false) (hwf : b.live.topology.WellFormed) :
    ∃ released left, c.Closes b m (c.close b m).2.1.live released left (c.close b m).1 := by
  have herrands := c.closeChannels_errands b m c.channels.keys
  have hcannot : b.CannotRecord m → _ := fun h => CannotRecord.errands h herrands
  have hopen := herrands.isClosed.trans hopen
  have hwf := herrands.calls.wellFormed hwf
  have howned := hwf.contains_ownedBy c.id
  have hnodup := hwf.nodup_ownedBy c.id
  obtain ⟨released, left, heq, hstopped, hunrecorded⟩ := deleteQueues_stopped
    (m := (closeChannels c b m c.channels.keys).2.2) hopen hwf hnodup
    fun _ => hwf.owns_of_mem_ownedBy
  have hclose : c.close b m = _ := c.close_eq b m
  rw [release, if_neg (by simp [hopen])] at hclose
  rw [heq] at hnodup howned
  rw [hclose]
  exact ⟨released, left, heq, hstopped, hstopped.owns_eq hnodup howned,
    fun h => hunrecorded (hcannot h)⟩

end Connection

/-! ## §4. A close that fails -/

namespace Host

open Broker Server LiveState

variable {medium handle : Type} [Medium medium handle]

/-- In every run, on whatever media: a connection to a running broker that closes is gone, and of
the queues that it owns once its channels are closed it has released, by name, those before the
first that the log kept.  With them went their bindings and messages, and the auto-delete
exchanges that were bound to them and to no other; all else is as it was.  It still owns the
others, and has failed exactly if there are any.  For the first of them the log had to take that a
durable exchange goes with it.  On a full log it is the first for which that is so, whatever may
be said of those after it. -/
theorem close_stops_at_refusal (settings : BrokerSettings) (nonce : UInt64)
    (shared : Option Mailboxes) (first : medium) (events : List (Event medium)) {number : Nat}
    {s : Server handle}
    (hs : ((fresh settings nonce shared first).afterAll events).server? number = some s)
    (hopen : s.broker.isClosed = false) {conn : ConnectionId} {c : Connection}
    (hc : s.connection? conn = some c) :
    ∃ (released left : List String) (result : Except Refusal Unit)
        (after : Host medium handle) (s' : Server handle),
      ((fresh settings nonce shared first).afterAll events).ask number (.closeConnection conn) =
        (result.map fun _ => .done, after) ∧
      after.server? number = some s' ∧ s'.connection? conn = none ∧ c.id = conn ∧
      c.Closes s.broker ((fresh settings nonce shared first).afterAll events).medium
        s'.broker.live released left result := by
  have horderly : s.Orderly := lasting_server? lasting_orderly hs
  generalize (fresh settings nonce shared first).afterAll events = h at hs ⊢
  obtain ⟨released, left, hcloses⟩ := c.close_closes (m := h.medium) hopen horderly.wellFormed
  rw [ask_of_server? hs, serve_closeConnection hc]
  refine ⟨released, left, _, _, _, rfl, server?_keep _ _ _ _, ?_, horderly.connection? hc, hcloses⟩
  rw [connection?]
  simp

/-- A log in memory with one durable auto-delete exchange on it, which takes nothing more. -/
def oneExchange : MemoryLog where
  entries := [⟨2, [.declareExchange "x" .direct true]⟩]
  refusals := { append := some "full" }

/-- A connection with three queues, and that exchange bound to the second and to no other, when
the log takes nothing more. -/
def threeQueues : List (Event MemoryLog) :=
  [.start, .ask 0 .connect, .ask 0 (.openChannel ⟨1⟩),
    .ask 0 (.onChannel ⟨1⟩ 1 (.declareExchange ⟨"x", .direct, true, true⟩ false)),
    .ask 0 (.onChannel ⟨1⟩ 1 (.declareQueue ⟨"a", false, true, false⟩ false)),
    .ask 0 (.onChannel ⟨1⟩ 1 (.declareQueue ⟨"b", false, true, false⟩ false)),
    .ask 0 (.onChannel ⟨1⟩ 1 (.declareQueue ⟨"c", false, true, false⟩ false)),
    .ask 0 (.onChannel ⟨1⟩ 1 (.bind ⟨"b", "x", "k"⟩)), .disturb oneExchange]

theorem threeQueues_cannotRecord :
    ∃ s : Server Unit, ((fresh {} 1 none {}).afterAll threeQueues).server? 0 = some s ∧
      s.broker.isClosed = false ∧ (s.connection? ⟨1⟩).isSome = true ∧
      s.broker.CannotRecord ((fresh {} 1 none {}).afterAll threeQueues).medium :=
  ⟨_, (Option.some_get (by decide +kernel)).symm, by decide +kernel, by decide +kernel,
    _, (Option.some_get (by decide +kernel)).symm, LogStore.full_memory rfl⟩

/-- The first of those queues is released, and the others are left. -/
theorem close_stops_at_refusal_of_three_queues :
    ∃ (s : Server Unit) (c : Connection) (released left : List String)
        (result : Except Refusal Unit) (after : Host MemoryLog Unit) (s' : Server Unit),
      ((fresh {} 1 none {}).afterAll threeQueues).server? 0 = some s ∧
      s.broker.isClosed = false ∧ s.connection? ⟨1⟩ = some c ∧
      s.broker.CannotRecord ((fresh {} 1 none {}).afterAll threeQueues).medium ∧
      ((fresh {} 1 none {}).afterAll threeQueues).ask 0 (.closeConnection ⟨1⟩) =
        (result.map fun _ => .done, after) ∧
      after.server? 0 = some s' ∧ s'.connection? ⟨1⟩ = none ∧
      c.Closes s.broker ((fresh {} 1 none {}).afterAll threeQueues).medium s'.broker.live
        released left result ∧
      s'.broker.live.topology.registry.ownedBy ⟨1⟩ = ["b", "c"] := by
  obtain ⟨s, hs, hopen, hconnection, hcannot⟩ := threeQueues_cannotRecord
  obtain ⟨c, hc⟩ := Option.isSome_iff_exists.1 hconnection
  obtain ⟨released, left, result, after, s', hasked, hs', hgone, -, hcloses⟩ :=
    close_stops_at_refusal _ _ _ _ _ hs hopen hc
  have hafter : (Host.ask _ 0 (.closeConnection ⟨1⟩)).2 = after := congrArg Prod.snd hasked
  have hleft : (after.server? 0).map (fun s => s.broker.live.topology.registry.ownedBy ⟨1⟩) =
      some ["b", "c"] := by
    rw [← hafter]
    decide +kernel
  rw [hs'] at hleft
  exact ⟨s, c, released, left, result, after, s', hs, hopen, hc, hcannot, hasked, hs', hgone,
    hcloses, Option.some.inj hleft⟩

/-- The last of those queues is bound to nothing, so that its deletion has nothing for the log to
take; yet it is left, with an owner that is gone. -/
theorem close_keeps_unbound_queue :
    let h : Host MemoryLog Unit := (fresh {} 1 none {}).afterAll threeQueues
    (∃ s, h.server? 0 = some s ∧ s.broker.CannotRecord h.medium) ∧
      (h.ask 0 (.closeConnection ⟨1⟩)).1 = .error (.journal (.write (.refused "full"))) ∧
      ((h.ask 0 (.closeConnection ⟨1⟩)).2.server? 0).map (fun s =>
          (s.broker.live.topology.registry.ownedBy ⟨1⟩,
            s.broker.live.topology.needsRecord "b",
            s.broker.live.topology.needsRecord "c")) = some (["b", "c"], true, false) := by
  intro h
  obtain ⟨s, hs, -, -, hcannot⟩ := threeQueues_cannotRecord
  exact ⟨⟨s, hs, hcannot⟩, by decide +kernel, by decide +kernel⟩

end Host

end BrokerTopology
