/-
  BrokerTopology.Proofs.HostRuns — what holds of every broker on a host,
  whatever happens to it.

  A run is a list of events.  Brokers are opened, restarted and asked
  for things, and between any two events the medium may become any other:
  hold a different log, or refuse some of its calls.  Brokers that were
  shut down stay on the host and may still be asked.

  What lasts is therefore true of every server of every run: what is true
  of one just opened, and is kept by every request on every medium.

  Main statements:
    * `Broker.openOn_topology` — a broker starts with what some log adds
      up to.
    * `Broker.Call.steps` — what a call makes of a topology.
    * `Host.lasting_server?` — what lasts is true at every point of every
      run.
    * `every_topology_wellFormed` — the topology of every broker of every
      run is well formed.
-/
import BrokerTopology.Host
import BrokerTopology.Proofs.BrokerCalls
import BrokerTopology.Proofs.Restoration

namespace BrokerTopology

/-! ## §1. Opening -/

/-- A journal that was loaded has the state that the entries of some log add up to. -/
theorem Journal.load_state {σ : Type} [LogStore σ] {compactAfter : Nat} {store : σ} {j : Journal}
    (h : (Journal.load compactAfter store).1 = .ok j) :
    ∃ entries, j.state = .ofEntries entries := by
  unfold Journal.load at h
  split at h
  next => cases h
  next entries _ _ =>
    unfold Journal.compact at h
    split at h
    next heq =>
      split at heq
      next => cases h
      next => cases heq
    next heq =>
      split at heq
      next => cases heq
      next =>
        injection heq with _ heq
        injection heq with heq _
        injection h with h
        rw [← h, ← heq]
        exact ⟨entries, rfl⟩

section

variable {medium handle : Type} [Medium medium handle]

namespace Broker

/-- A broker just opened has the log open that its topology is restored from. -/
theorem openOn_log {settings : BrokerSettings} {nonce : UInt64} {mailboxes : Mailboxes}
    {m : medium} {b : Broker handle} (h : (openOn settings nonce mailboxes m).1 = .ok b) :
    ∃ log entries, log.journal.state = .ofEntries entries ∧
      b = { settings, live := ⟨.restore nonce log.journal.state, mailboxes⟩, log := some log } := by
  unfold openOn at h
  split at h
  next => cases h
  next log _ hopen =>
    injection h with h
    subst h
    unfold OpenLog.openOn at hopen
    split at hopen
    next => cases hopen
    next =>
      split at hopen
      next => cases hopen
      next journal _ _ hload =>
        injection hopen with hlog _
        injection hlog with hlog
        obtain ⟨entries, hentries⟩ := Journal.load_state (congrArg Prod.fst hload)
        exact ⟨log, entries, by rw [← hlog, hentries], rfl⟩

theorem openOn_topology {settings : BrokerSettings} {nonce : UInt64} {mailboxes : Mailboxes}
    {m : medium} {b : Broker handle} (h : (openOn settings nonce mailboxes m).1 = .ok b) :
    ∃ entries, b.live.topology = .restore nonce (.ofEntries entries) := by
  obtain ⟨log, entries, hstate, rfl⟩ := openOn_log h
  exact ⟨entries, by rw [← hstate]⟩

/-- A broker just opened is well formed. -/
theorem openOn_wellFormed {settings : BrokerSettings} {nonce : UInt64} {mailboxes : Mailboxes}
    {m : medium} {b : Broker handle} (h : (openOn settings nonce mailboxes m).1 = .ok b) :
    b.live.topology.WellFormed := by
  obtain ⟨entries, htopology⟩ := openOn_topology h
  rw [htopology]
  exact Topology.wellFormed_restore (DurableState.closed_ofEntries entries)

/-- One call comes to elementary changes of the topology; of one that is not recorded only the
names drawn are left. -/
theorem Call.steps {before after : Broker handle × medium}
    (h : before.1.live.topology.WellFormed) (hcall : Call before after) :
    ∃ ops, Topology.Steps before.1.live.topology ops after.1.live.topology := by
  cases hcall with
  | @perform _ d hd b m =>
    exact perform_live ⟨[], .refl b.live.topology⟩
      (P := fun s => ∃ ops, Topology.Steps b.live.topology ops s.topology)
      (fun change hchange => ⟨[], .single (.names (hd _ _ h hchange).advances)⟩)
      (fun change hchange => ⟨change.ops, hd _ _ h hchange⟩) m
  | compact b m =>
    show ∃ ops, Topology.Steps b.live.topology ops (b.compact m).2.1.live.topology
    rw [b.compact_live m]
    exact ⟨[], .refl _⟩
  | shutdown b m =>
    show ∃ ops, Topology.Steps b.live.topology ops (b.shutdown m).2.1.live.topology
    rw [b.shutdown_live m]
    exact ⟨[], .refl _⟩
  | connect b m => exact ⟨[], .refl _⟩

/-- One call. -/
theorem Call.wellFormed {before after : Broker handle × medium}
    (h : before.1.live.topology.WellFormed) (hcall : Call before after) :
    after.1.live.topology.WellFormed := by
  obtain ⟨ops, hsteps⟩ := hcall.steps h
  exact hsteps.wellFormed h

theorem Calls.wellFormed {before after : Broker handle × medium} (hcalls : Calls before after)
    (h : before.1.live.topology.WellFormed) : after.1.live.topology.WellFormed :=
  hcalls.preserves (fun b _ => b.live.topology.WellFormed)
    (fun _ _ hinv hcall => hcall.wellFormed hinv) h

/-- A restart shuts the broker down, and then either fails or opens another. -/
theorem restart_eq (b : Broker handle) (nonce : UInt64) (m : medium) :
    ∃ result m', b.restart nonce m = (result, (b.shutdown m).2.1, m') ∧
      ((∃ e, result = .error e ∧ m' = (b.shutdown m).2.2) ∨
        ∃ settings mailboxes,
          openOn settings nonce mailboxes (b.shutdown m).2.2 = (result, m')) := by
  rcases hshutdown : b.shutdown m with ⟨_ | _, b', m'⟩
  next e =>
    refine ⟨.error e, m', ?_, Or.inl ⟨e, rfl, rfl⟩⟩
    unfold restart
    rw [hshutdown]
  next =>
    refine ⟨_, _, ?_, Or.inr ⟨b'.settings,
      if b'.settings.keepsMessages then b'.live.mailboxes else .empty, rfl⟩⟩
    unfold restart
    rw [hshutdown]
    rfl

end Broker

/-- What holds of every server just opened, and stays so whatever is asked of it, on whatever
medium, and whatever becomes of its messages. -/
structure Server.Lasting (medium : Type) {handle : Type} [Medium medium handle]
    (inv : Server handle → Prop) : Prop where
  opened : ∀ {settings : BrokerSettings} {nonce : UInt64} {mailboxes : Mailboxes} {m : medium}
    {b : Broker handle}, (Broker.openOn settings nonce mailboxes m).1 = .ok b → inv { broker := b }
  served : ∀ {s : Server handle}, inv s → ∀ (m : medium) (q : Server.Request),
    inv (s.serve m q).2.1
  mailed : ∀ {s : Server handle}, inv s → ∀ mailboxes : Mailboxes,
    inv { s with broker := s.broker.withMailboxes mailboxes }

/-- What holds of every topology restored, and is kept by elementary changes of well-formed ones,
lasts. -/
theorem Server.lasting_of_steps {inv : Topology → Prop}
    (hrestored : ∀ (nonce : UInt64) (s : DurableState), s.Closed → inv (.restore nonce s))
    (hsteps : ∀ {t t' : Topology} {ops : List DurableOp}, t.WellFormed → inv t →
      Topology.Steps t ops t' → inv t') :
    Server.Lasting medium fun s : Server handle =>
      s.broker.live.topology.WellFormed ∧ inv s.broker.live.topology where
  opened hopen := by
    obtain ⟨entries, htopology⟩ := Broker.openOn_topology hopen
    refine ⟨Broker.openOn_wellFormed hopen, ?_⟩
    show inv _
    rw [htopology]
    exact hrestored _ _ (DurableState.closed_ofEntries entries)
  served {s} h m q := by
    refine (s.serve_calls m q).preserves
      (fun b _ => b.live.topology.WellFormed ∧ inv b.live.topology) ?_ h
    rintro before after ⟨hwf, hinv⟩ hcall
    obtain ⟨ops, hrun⟩ := hcall.steps hwf
    exact ⟨hrun.wellFormed hwf, hsteps hwf hinv hrun⟩
  mailed h _ := h

theorem Server.lasting_wellFormed :
    Server.Lasting medium fun s : Server handle => s.broker.live.topology.WellFormed where
  opened := Broker.openOn_wellFormed
  served {s} h m q := (s.serve_calls m q).wellFormed h
  mailed h _ := h

end

/-! ## §2. Runs -/

/-- What is found by number after something is kept under a number. -/
theorem ByNumber.getElem?_insert {α : Type} (m : Std.ExtTreeMap Nat α compare)
    (number other : Nat) (a : α) :
    (m.insert number a)[other]? = if number = other then some a else m[other]? := by
  simp [Std.ExtTreeMap.getElem?_insert]

namespace Host

/-- What may happen to a host. -/
inductive Event (medium : Type) where
  /-- A broker is opened, and is the current one from then on. -/
  | start
  /-- A broker is opened and let go of. -/
  | probe
  | restart
  | ask (number : Nat) (q : Server.Request)
  /-- The medium becomes another. -/
  | disturb (m : medium)

variable {medium handle : Type}

/-- What an event makes of a host. -/
def after [Medium medium handle] (h : Host medium handle) : Event medium → Host medium handle
  | .start => h.open.2
  | .probe => h.openBeside.2
  | .restart =>
    match h.restart with
    | none => h
    | some outcome => outcome.2
  | .ask number q => (h.ask number q).2
  | .disturb m => { h with medium := m }

/-- What events, one after the other, make of a host. -/
def afterAll [Medium medium handle] (h : Host medium handle) (events : List (Event medium)) :
    Host medium handle :=
  events.foldl after h

/-- Every server on a host, as it is kept, has a property. -/
def Every (inv : Server handle → Prop) (h : Host medium handle) : Prop :=
  ∀ (number : Nat) s, h.servers[number]? = some s → inv s

/-- Every broker on a host is well formed. -/
def Sound (h : Host medium handle) : Prop :=
  ∀ (number : Nat) s, h.servers[number]? = some s → s.broker.live.topology.WellFormed

/-- Sharing messages changes nothing but messages. -/
theorem server?_eq_some {h : Host medium handle} {number : Nat} {s : Server handle}
    (hs : h.server? number = some s) : ∃ kept, h.servers[number]? = some kept ∧
      s.connections = kept.connections ∧
        ∃ mailboxes, s.broker = kept.broker.withMailboxes mailboxes := by
  unfold server? at hs
  rw [Option.map_eq_some_iff] at hs
  obtain ⟨kept, hkept, hs⟩ := hs
  refine ⟨kept, hkept, ?_⟩
  subst hs
  split
  next => exact ⟨rfl, kept.broker.live.mailboxes, rfl⟩
  next mailboxes _ => exact ⟨rfl, mailboxes, rfl⟩

/-- What is kept of a server is found again. -/
theorem server?_keep (h : Host medium handle) (number : Nat) (s : Server handle) (m : medium) :
    (h.keep number s m).server? number = some s := by
  unfold server? Host.keep
  rw [ByNumber.getElem?_insert, if_pos rfl]
  cases h.shared with
  | none => rfl
  | some mailboxes => rfl

theorem ask_of_server? [Medium medium handle] {h : Host medium handle} {number : Nat}
    {s : Server handle} (hs : h.server? number = some s) (q : Server.Request) :
    h.ask number q = ((s.serve h.medium q).1,
      h.keep number (s.serve h.medium q).2.1 (s.serve h.medium q).2.2) := by
  unfold Host.ask
  rw [hs]

/-- Every broker that is kept can be asked. -/
theorem exists_server? {h : Host medium handle} {number : Nat} {kept : Server handle}
    (hkept : h.servers[number]? = some kept) : ∃ s, h.server? number = some s ∧
      ∃ mailboxes, s.broker = kept.broker.withMailboxes mailboxes := by
  cases hs : h.server? number with
  | none =>
    rw [Host.server?, hkept] at hs
    cases hs
  | some s =>
    obtain ⟨kept', hkept', -, hbroker⟩ := server?_eq_some hs
    rw [hkept] at hkept'
    injection hkept' with hsame
    exact ⟨s, rfl, hsame ▸ hbroker⟩

theorem Sound.server? {h : Host medium handle} (hsound : h.Sound) {number : Nat}
    {s : Server handle} (hs : h.server? number = some s) : s.broker.live.topology.WellFormed := by
  obtain ⟨kept, hkept, -, mailboxes, hbroker⟩ := server?_eq_some hs
  rw [hbroker]
  exact hsound number kept hkept

/-- A host with one server put in a place. -/
theorem Every.insert {inv : Server handle → Prop} {h : Host medium handle} (hevery : h.Every inv)
    {h' : Host medium handle} {number : Nat} {s : Server handle}
    (hservers : h'.servers = h.servers.insert number s) (hs : inv s) : h'.Every inv := by
  intro other kept hkept
  rw [hservers, ByNumber.getElem?_insert] at hkept
  split at hkept
  next =>
    injection hkept with hkept
    exact hkept ▸ hs
  next => exact hevery other kept hkept

/-- A host without brokers. -/
def fresh (settings : BrokerSettings) (nonce : UInt64) (shared : Option Mailboxes) (m : medium) :
    Host medium handle where
  medium := m
  settings := settings
  nonce := nonce
  shared := shared

theorem every_fresh (inv : Server handle → Prop) (settings : BrokerSettings) (nonce : UInt64)
    (shared : Option Mailboxes) (m : medium) :
    (fresh settings nonce shared m : Host medium handle).Every inv := by
  intro number s hs
  simp [fresh] at hs

theorem sound_fresh (settings : BrokerSettings) (nonce : UInt64) (shared : Option Mailboxes)
    (m : medium) : (fresh settings nonce shared m : Host medium handle).Sound :=
  every_fresh _ settings nonce shared m

/-! ## §3. The invariant of a run -/

section

variable [Medium medium handle] {inv : Server handle → Prop} {h : Host medium handle}

/-- What lasts holds of a server that is asked as of one that is kept: only messages differ. -/
theorem Every.server? (hlasting : Server.Lasting medium inv) (hevery : h.Every inv) {number : Nat}
    {s : Server handle} (hs : h.server? number = some s) : inv s := by
  obtain ⟨kept, hkept, hconnections, mailboxes, hbroker⟩ := server?_eq_some hs
  have heq : s = { kept with broker := kept.broker.withMailboxes mailboxes } := by
    rw [← hconnections, ← hbroker]
  rw [heq]
  exact hlasting.mailed (hevery number kept hkept) mailboxes

theorem Every.open (hlasting : Server.Lasting medium inv) (hevery : h.Every inv) :
    h.open.2.Every inv := by
  rcases hopen : Broker.openOn h.settings h.nonce (h.shared.getD .empty) h.medium with ⟨result, m⟩
  unfold Host.open
  rw [hopen]
  cases result with
  | error e => exact hevery
  | ok b => exact hevery.insert rfl (hlasting.opened (congrArg Prod.fst hopen))

theorem Every.openBeside (hevery : h.Every inv) : h.openBeside.2.Every inv := by
  unfold Host.openBeside
  simp only
  split
  next => exact hevery
  next => exact hevery

theorem Every.ask (hlasting : Server.Lasting medium inv) (hevery : h.Every inv) (number : Nat)
    (q : Server.Request) : (h.ask number q).2.Every inv := by
  unfold Host.ask
  split
  next => exact hevery
  next s hs => exact hevery.insert rfl (hlasting.served (hevery.server? hlasting hs) h.medium q)

/-- A server whose broker is restarted is shut down and kept, and the next one starts afresh. -/
theorem Every.restart (hlasting : Server.Lasting medium inv) (hevery : h.Every inv)
    {outcome : Outcome (Host medium handle) Refusal Unit} (hrestart : h.restart = some outcome) :
    outcome.2.Every inv := by
  unfold Host.restart at hrestart
  split at hrestart
  next => cases hrestart
  next number _ =>
    rw [Option.map_eq_some_iff] at hrestart
    obtain ⟨s, hs, houtcome⟩ := hrestart
    have hold : inv { s with broker := (s.broker.shutdown h.medium).2.1 } :=
      hlasting.served (hevery.server? hlasting hs) h.medium .shutdown
    obtain ⟨result, m, heq, hresult⟩ := s.broker.restart_eq h.nonce h.medium
    have hkept :
        (h.keep number { s with broker := (s.broker.shutdown h.medium).2.1 } m).Every inv :=
      hevery.insert rfl hold
    rw [heq] at houtcome
    subst houtcome
    cases result with
    | error e => exact hkept
    | ok other =>
      rcases hresult with ⟨e, hfalse, -⟩ | ⟨settings, mailboxes, hopen⟩
      · cases hfalse
      · exact hkept.insert rfl (hlasting.opened (congrArg Prod.fst hopen))

/-- Whatever happens to a host, its servers keep what lasts. -/
theorem Every.after (hlasting : Server.Lasting medium inv) (hevery : h.Every inv)
    (e : Event medium) : (h.after e).Every inv := by
  cases e with
  | start => exact hevery.open hlasting
  | probe => exact hevery.openBeside
  | restart =>
    unfold Host.after
    simp only
    split
    next => exact hevery
    next outcome hrestart => exact hevery.restart hlasting hrestart
  | ask number q => exact hevery.ask hlasting number q
  | disturb m => exact hevery

theorem Every.afterAll (hlasting : Server.Lasting medium inv) (hevery : h.Every inv)
    (events : List (Event medium)) : (h.afterAll events).Every inv := by
  induction events generalizing h with
  | nil => exact hevery
  | cons e events ih => exact ih (hevery.after hlasting e)

/-- What lasts holds of every server of every run. -/
theorem lasting_server? (hlasting : Server.Lasting medium inv) {settings : BrokerSettings}
    {nonce : UInt64} {shared : Option Mailboxes} {m : medium} {events : List (Event medium)}
    {number : Nat} {s : Server handle}
    (hs : ((fresh settings nonce shared m).afterAll events).server? number = some s) : inv s :=
  ((every_fresh inv settings nonce shared m).afterAll hlasting events).server? hlasting hs

end

variable [Medium medium handle]

theorem Sound.afterAll {h : Host medium handle} (hsound : h.Sound) (events : List (Event medium)) :
    (h.afterAll events).Sound :=
  Every.afterAll Server.lasting_wellFormed hsound events

/-- In every run, on whatever media, every broker has a well-formed topology: its bindings join
a queue and an exchange that are there, the two indexes hold the same bindings, the counts are
right, also of names that nothing has, records stand active under their own names, exactly the
exclusive queues are owned, and the built-in exchanges are as at the start. -/
theorem every_topology_wellFormed (settings : BrokerSettings) (nonce : UInt64)
    (shared : Option Mailboxes) (m : medium) (events : List (Event medium)) {number : Nat}
    {s : Server handle} (hs : ((fresh settings nonce shared m).afterAll events).server? number =
      some s) :
    s.broker.live.topology.WellFormed ∧
      (∀ x, s.broker.live.topology.references.bindingsOf x =
        s.broker.live.topology.bindings.toList.countP fun b => b.exchange == x) ∧
      ∀ x, s.broker.live.topology.registry.hasExchange x = false →
        s.broker.live.topology.references.bindingsOf x = 0 := by
  have h := ((sound_fresh settings nonce shared m).afterAll events).server? hs
  refine ⟨h, ?_, ?_⟩
  · intro x
    rw [h.bindings_counted, h.table.length_ofExchange]
  · intro x hx
    rw [h.bindings_counted, List.length_eq_zero_iff, List.eq_nil_iff_forall_not_mem]
    intro b hb
    obtain ⟨hb, hbx⟩ := h.table.mem_ofExchange.1 hb
    have hpresent := h.exchange_of_binding b hb
    rw [hbx, hx] at hpresent
    cases hpresent

/-- A log that declares a built-in exchange anew and binds to it, and a broker on it that
cannot record a deletion. -/
theorem every_topology_wellFormed_of_builtins :
    ∃ s, ((fresh {} 1 none
        ({ entries := [⟨7, [.declareExchange "amq.direct" .topic true, .declareQueue "q" true,
          .bind ⟨"q", "amq.direct", "k"⟩, .bind ⟨"q", "amq.fanout", ""⟩]⟩] } :
          MemoryLog)).afterAll
        [.start, .ask 0 (.operation (.attachConsumer "q")),
          .disturb { refusals := { append := some "full" } },
          .ask 0 (.operation (.deleteQueue "q" false false))]).server? 0 = some s ∧
      s.broker.live.topology.WellFormed := by
  refine ⟨_, (Option.some_get ?_).symm,
    (every_topology_wellFormed _ _ _ _ _ (Option.some_get ?_).symm).1⟩ <;> decide +kernel

end Host

end BrokerTopology
