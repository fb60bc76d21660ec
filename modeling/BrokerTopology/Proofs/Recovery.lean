/-
  BrokerTopology.Proofs.Recovery — what survives a broker is exactly the
  durable part of its topology.

  A broker is opened on a log in memory, asked for anything, restarted,
  and looked at by other brokers that are opened beside it, while the log
  may begin or cease to refuse calls at any time.  As long as nobody else
  writes the log, at every point another broker may be opened on it and
  finds the durable part of the running topology, no more and no less.

  The invariant is `Recorded`: the log, replayed, passes nothing over and
  comes to a state that describes the topology, and the open journal
  knows that state.  A call keeps it whether the log takes the call or
  refuses it.  On a host the brokers that were shut down write no more,
  so one broker at most is to be looked at.

  Main statements:
    * `Broker.Call.recorded` — the invariant, call by call.
    * `Host.recovery_exact` — in every run the log recovers exactly the
      durable part of the current topology.
-/
import BrokerTopology.Proofs.DurablePart
import BrokerTopology.Proofs.HostRuns
import BrokerTopology.Proofs.MemoryJournal

namespace BrokerTopology

namespace Broker

/-! ## §1. One broker and its log -/

/-- The log replays, with nothing passed over, to a state that describes the topology, and the
open journal knows that state. -/
structure Recorded (b : Broker Unit) (entries : List JournalEntry) : Prop where
  wellFormed : b.live.topology.WellFormed
  replays : DurableState.empty.Replays (entries.flatMap JournalEntry.ops) (.ofEntries entries)
  describes : (DurableState.ofEntries entries).Describes b.live.topology
  journal_state : ∀ log, b.log = some log → log.journal.state = .ofEntries entries

theorem Recorded.journal_matches {b : Broker Unit} {entries : List JournalEntry}
    (h : b.Recorded entries) {log : OpenLog Unit} (hlog : b.log = some log) :
    log.journal.Matches entries := by
  rw [Journal.Matches, h.journal_state log hlog]
  exact h.replays

/-- A broker whose open journal matches the log. -/
theorem recorded_of_matches {b : Broker Unit} {entries : List JournalEntry} {log : OpenLog Unit}
    (hwf : b.live.topology.WellFormed) (hlog : b.log = some log)
    (hmatches : log.journal.Matches entries)
    (hdescribes : log.journal.state.Describes b.live.topology) : b.Recorded entries := by
  refine ⟨hwf, ?_, ?_, ?_⟩
  · rw [hmatches.state_eq]
    exact hmatches
  · rw [hmatches.state_eq]
    exact hdescribes
  · intro log' hlog'
    rw [hlog] at hlog'
    injection hlog' with hlog'
    rw [← hlog', hmatches.state_eq]

/-- To shut a broker down leaves a log in memory as it is. -/
theorem shutdown_memory (b : Broker Unit) (m : MemoryLog) :
    (b.shutdown m).2 = ({ b with log := none }, m) := by
  unfold shutdown
  split
  next hlog => rw [← hlog]
  next log _ =>
    show ({ b with log := none }, (log.sync m).2.1.release (log.sync m).2.2) = _
    rw [log.sync_memory m, OpenLog.release_memory]

theorem release_memory (b : Broker Unit) (m : MemoryLog) : b.release m = m := by
  unfold release
  split
  next => rfl
  next => rfl

/-- Messages are not recorded. -/
theorem Recorded.withMailboxes {b : Broker Unit} {entries : List JournalEntry}
    (h : b.Recorded entries) (mailboxes : Mailboxes) :
    (b.withMailboxes mailboxes).Recorded entries :=
  ⟨h.wellFormed, h.replays, h.describes, h.journal_state⟩

/-- An operation, whether the log takes what it is recorded as or refuses it. -/
theorem perform_recorded {α : Type} {d : Decision α} (hd : d.Stepwise) {b : Broker Unit}
    {m : MemoryLog} (h : b.Recorded m.entries) :
    (b.perform d m).2.1.Recorded (b.perform d m).2.2.entries := by
  have hperformed := performed d b m
  generalize b.perform d m = outcome at hperformed ⊢
  cases hperformed with
  | closed => exact h
  | refused => exact h
  | @unrecorded log log' change e m' hlog hchange hrecord =>
    rcases log.record_cases change.ops m with ⟨e', heq⟩ | ⟨_, _, heq, -⟩
    · rw [heq] at hrecord
      injection hrecord with _ hrecord
      injection hrecord with hlog' hm'
      subst hlog' hm'
      -- the change is dropped, and of what it was decided on only the drawn name is kept
      have hdescribes : (DurableState.ofEntries m.entries).Describes
          (b.live.withNames change.live).topology :=
        ⟨h.describes.exchanges, h.describes.queues, h.describes.bindings⟩
      exact recorded_of_matches (h.wellFormed.withGenerator _) rfl (h.journal_matches hlog)
        (by rwa [h.journal_state log hlog])
    · rw [heq] at hrecord
      cases hrecord
  | @recorded log log' change m' hlog hchange hrecord =>
    rcases log.record_cases change.ops m with ⟨e', heq⟩ | ⟨log'', entries, heq, hmatches⟩
    · rw [heq] at hrecord
      cases hrecord
    · rw [heq] at hrecord
      injection hrecord with _ hrecord
      injection hrecord with hlog' hm'
      subst hlog' hm'
      -- the entry and the topology take the same steps, so the one still describes the other
      have hsteps := hd _ _ h.wellFormed hchange
      obtain ⟨s', hreplays, hdescribes⟩ := h.describes.steps h.wellFormed hsteps
      rw [← h.journal_state log hlog] at hreplays
      obtain ⟨hmatched, hstate⟩ := hmatches s' (h.journal_matches hlog) hreplays
      exact recorded_of_matches (hsteps.wellFormed h.wellFormed) rfl hmatched
        (by rwa [hstate])

/-- One call. -/
theorem Call.recorded {before after : Broker Unit × MemoryLog}
    (h : before.1.Recorded before.2.entries) (hcall : Call before after) :
    after.1.Recorded after.2.entries := by
  cases hcall with
  | perform hd b m => exact perform_recorded hd h
  | compact b m =>
    unfold Broker.compact
    split
    next => exact h
    next log hlog =>
      rcases log.compact_cases m with ⟨e, heq⟩ | heq
      · rw [heq]
        exact recorded_of_matches h.wellFormed rfl (h.journal_matches hlog)
          (by rw [h.journal_state log hlog]; exact h.describes)
      · rw [heq]
        have hmatched : log.journal.compacted.Matches log.journal.snapshot :=
          Journal.matches_snapshot (h.journal_matches hlog).closed rfl
        exact recorded_of_matches h.wellFormed rfl hmatched
          (by rw [Journal.compacted_state, h.journal_state log hlog]; exact h.describes)
  | shutdown b m =>
    rw [shutdown_memory]
    exact ⟨h.wellFormed, h.replays, h.describes, fun log hlog => by cases hlog⟩
  | connect b m => exact ⟨h.wellFormed, h.replays, h.describes, h.journal_state⟩

/-- Another log that replays to the same state. -/
theorem Recorded.rewritten {b : Broker Unit} {entries entries' : List JournalEntry}
    (h : b.Recorded entries)
    (hsame : DurableState.empty.Replays (entries'.flatMap JournalEntry.ops) (.ofEntries entries)) :
    b.Recorded entries' := by
  have hstate : DurableState.ofEntries entries' = .ofEntries entries := hsame.1
  refine ⟨h.wellFormed, ?_, ?_, ?_⟩
  · rw [hstate]
    exact hsame
  · rw [hstate]
    exact h.describes
  · intro log hlog
    rw [hstate]
    exact h.journal_state log hlog

/-- A broker is opened on every log that refuses nothing, and its log is right. -/
theorem openOn_memory (settings : BrokerSettings) (nonce : UInt64) (mailboxes : Mailboxes)
    (m : MemoryLog) :
    (∃ e, openOn settings nonce mailboxes m = (.error e, m) ∧ m.refusals ≠ {}) ∨
      ∃ b entries, openOn settings nonce mailboxes m = (.ok b, { m with entries }) ∧
        b.live.topology = .restore nonce (.ofEntries m.entries) ∧ b.Recorded entries ∧
        DurableState.ofEntries entries = .ofEntries m.entries := by
  rcases OpenLog.openOn_cases settings.compactAfter m with ⟨e, heq, hrefused⟩ | heq
  · exact Or.inl ⟨.journal e, by simp only [openOn, heq], hrefused⟩
  · have hclosed := DurableState.closed_ofEntries m.entries
    have hmatches : (Journal.ofEntries settings.compactAfter m.entries).compacted.Matches
        (Journal.ofEntries settings.compactAfter m.entries).snapshot :=
      Journal.matches_snapshot hclosed rfl
    exact Or.inr ⟨_, _, by simp only [openOn, heq]; rfl, rfl,
      recorded_of_matches (Topology.wellFormed_restore hclosed) rfl hmatches
        (Topology.describes_restore hclosed), hmatches.state_eq⟩

end Broker

/-- Whatever is asked of a server. -/
theorem Server.serve_recorded {s : Server Unit} {m : MemoryLog}
    (h : s.broker.Recorded m.entries) (q : Server.Request) :
    (s.serve m q).2.1.broker.Recorded (s.serve m q).2.2.entries :=
  (s.serve_calls m q).preserves (fun (b : Broker Unit) (m : MemoryLog) => b.Recorded m.entries)
    (fun _ _ hinv hcall => hcall.recorded hinv) h

namespace Host

/-! ## §2. One broker at most writes the log -/

/-- What may happen to a host with a log in memory that nobody else writes. -/
inductive Turn where
  /-- A broker is opened beside the current one and let go of. -/
  | probe
  | restart
  | ask (number : Nat) (q : Server.Request)
  /-- The log refuses these calls from now on. -/
  | refuse (refusals : Refusals)

/-- The event that a turn is. -/
def Turn.event (log : MemoryLog) : Turn → Event MemoryLog
  | probe => .probe
  | restart => .restart
  | ask number q => .ask number q
  | refuse refusals => .disturb { log with refusals }

/-- What turns, one after the other, make of a host. -/
def afterTurns (h : Host MemoryLog Unit) (turns : List Turn) : Host MemoryLog Unit :=
  turns.foldl (fun h turn => h.after (turn.event h.medium)) h

/-- The current broker has its log right, and every other is shut down. -/
structure Sole (h : Host MemoryLog Unit) (number : Nat) (s : Server Unit) : Prop where
  current : h.current = some number
  kept : h.servers[number]? = some s
  recorded : s.broker.Recorded h.medium.entries
  others_closed : ∀ (other : Nat) s', h.servers[other]? = some s' → other ≠ number →
    s'.broker.log = none
  numbered : ∀ (other : Nat) s', h.servers[other]? = some s' → other < h.nextServer

variable {h : Host MemoryLog Unit} {number : Nat} {s : Server Unit}

/-- What becomes of the sole writer. -/
theorem Sole.keep (hsole : h.Sole number s) {s' : Server Unit} {m : MemoryLog}
    (hs' : s'.broker.Recorded m.entries) : (h.keep number s' m).Sole number s' := by
  have hlook := ByNumber.getElem?_insert h.servers number
  refine ⟨hsole.current, (hlook number s').trans (if_pos rfl), hs', ?_, ?_⟩
  · intro other t ht hne
    have ht := (hlook other s').symm.trans ht
    rw [if_neg (Ne.symm hne)] at ht
    exact hsole.others_closed other t ht hne
  · intro other t ht
    have ht := (hlook other s').symm.trans ht
    split at ht
    next hsame => exact hsame ▸ hsole.numbered number s hsole.kept
    next => exact hsole.numbered other t ht

/-- What becomes of another broker. -/
theorem Sole.keep_other (hsole : h.Sole number s) {other : Nat} (hne : other ≠ number)
    {kept t : Server Unit} (hkept : h.servers[other]? = some kept) (ht : t.broker.log = none) :
    (h.keep other t h.medium).Sole number s := by
  have hlook := ByNumber.getElem?_insert h.servers other
  refine ⟨hsole.current, ?_, hsole.recorded, ?_, ?_⟩
  · exact (hlook number t).trans ((if_neg hne).trans hsole.kept)
  · intro k u hu hk
    have hu := (hlook k t).symm.trans hu
    split at hu
    next =>
      injection hu with hu
      exact hu ▸ ht
    next => exact hsole.others_closed k u hu hk
  · intro k u hu
    have hu := (hlook k t).symm.trans hu
    split at hu
    next hsame => exact hsame ▸ hsole.numbered other kept hkept
    next => exact hsole.numbered k u hu

theorem Sole.drawNonce (hsole : h.Sole number s) : h.drawNonce.Sole number s :=
  ⟨hsole.current, hsole.kept, hsole.recorded, hsole.others_closed, hsole.numbered⟩

/-- A broker that takes over from one that is shut down. -/
theorem Sole.install (hsole : h.Sole number s) (hclosed : s.broker.log = none)
    {b : Broker Unit} (hb : b.Recorded h.medium.entries) :
    (h.install b).Sole h.nextServer { broker := b } := by
  have hlook := ByNumber.getElem?_insert h.servers h.nextServer
  refine ⟨rfl, (hlook h.nextServer _).trans (if_pos rfl), hb, ?_, ?_⟩
  · intro other t ht hne
    have ht := (hlook other _).symm.trans ht
    rw [if_neg (Ne.symm hne)] at ht
    by_cases hnumber : other = number
    · rw [hnumber, hsole.kept] at ht
      injection ht with ht
      exact ht ▸ hclosed
    · exact hsole.others_closed other t ht hnumber
  · intro other t ht
    have ht := (hlook other _).symm.trans ht
    split at ht
    next hsame => exact hsame ▸ Nat.lt_succ_self _
    next => exact Nat.lt_succ_of_lt (hsole.numbered other t ht)

/-! ## §3. Runs -/

theorem Sole.ask (hsole : h.Sole number s) (other : Nat) (q : Server.Request) :
    ∃ s', (h.ask other q).2.Sole number s' := by
  unfold Host.ask
  split
  next => exact ⟨s, hsole⟩
  next t ht =>
    obtain ⟨kept, hkept, -, mailboxes, hbroker⟩ := server?_eq_some ht
    by_cases hsame : other = number
    · subst hsame
      rw [hsole.kept] at hkept
      injection hkept with hkept
      have hrecorded : t.broker.Recorded h.medium.entries := by
        rw [hbroker, ← hkept]
        exact hsole.recorded.withMailboxes mailboxes
      exact ⟨_, hsole.keep (Server.serve_recorded hrecorded q)⟩
    · have hclosed : t.broker.log = none := by
        rw [hbroker]
        exact hsole.others_closed other kept hkept hsame
      obtain ⟨hlog, hm⟩ := t.serve_closed hclosed h.medium q
      refine ⟨s, ?_⟩
      simp only [hm]
      exact hsole.keep_other hsame hkept hlog

/-- To look at the log rewrites it, and does not change what it adds up to. -/
theorem Sole.openBeside (hsole : h.Sole number s) : h.openBeside.2.Sole number s := by
  unfold Host.openBeside
  rcases Broker.openOn_memory h.settings h.nonce (h.shared.getD .empty) h.medium with
    ⟨e, heq, -⟩ | ⟨b, entries, heq, -, hb, hsame⟩
  · rw [heq]
    exact ⟨hsole.current, hsole.kept, hsole.recorded, hsole.others_closed, hsole.numbered⟩
  · rw [heq]
    have hrecorded : s.broker.Recorded entries :=
      hsole.recorded.rewritten (hsame ▸ hb.replays)
    refine ⟨hsole.current, hsole.kept, ?_, hsole.others_closed, hsole.numbered⟩
    show s.broker.Recorded (b.release { h.medium with entries }).entries
    rw [Broker.release_memory]
    exact hrecorded

/-- After a restart the next broker is the sole writer, or the one that was shut down still is. -/
theorem Sole.restart (hsole : h.Sole number s)
    {outcome : Outcome (Host MemoryLog Unit) Refusal Unit} (hrestart : h.restart = some outcome) :
    ∃ number' s', outcome.2.Sole number' s' := by
  obtain ⟨t, ht, mailboxes, hbroker⟩ := exists_server? hsole.kept
  have hrecorded : t.broker.Recorded h.medium.entries := by
    rw [hbroker]
    exact hsole.recorded.withMailboxes mailboxes
  have hclosed : Broker.Recorded { t.broker with log := none } h.medium.entries :=
    ⟨hrecorded.wellFormed, hrecorded.replays, hrecorded.describes, fun log hlog => by cases hlog⟩
  obtain ⟨result, m, heq, hresult⟩ := t.broker.restart_eq h.nonce h.medium
  rw [Broker.shutdown_memory] at heq hresult
  unfold Host.restart at hrestart
  rw [hsole.current] at hrestart
  simp only [ht, Option.map_some, heq, Option.some.injEq] at hrestart
  subst hrestart
  rcases hresult with ⟨e, rfl, rfl⟩ | ⟨settings, boxes, hopen⟩
  · exact ⟨number, _, (hsole.keep hclosed).drawNonce⟩
  · rcases Broker.openOn_memory settings h.nonce boxes h.medium with
      ⟨e, hopened, -⟩ | ⟨b, entries, hopened, -, hb, hsame⟩
    · rw [hopened] at hopen
      injection hopen with hresult hm
      subst hresult hm
      exact ⟨number, _, (hsole.keep hclosed).drawNonce⟩
    · rw [hopened] at hopen
      injection hopen with hresult hm
      subst hresult hm
      -- opening rewrote the log, but not what it replays to
      have hrewritten : Broker.Recorded { t.broker with log := none } entries :=
        hclosed.rewritten (hsame ▸ hb.replays)
      have hkept : Host.Sole (h.keep number { t with broker := { t.broker with log := none } }
          { h.medium with entries }) number { t with broker := { t.broker with log := none } } :=
        hsole.keep hrewritten
      exact ⟨_, _, hkept.drawNonce.install rfl hb⟩

/-- Whatever happens in a turn, one broker at most writes the log. -/
theorem Sole.turn (hsole : h.Sole number s) (turn : Turn) :
    ∃ number' s', (h.after (turn.event h.medium)).Sole number' s' := by
  cases turn with
  | probe => exact ⟨number, s, hsole.openBeside⟩
  | restart =>
    unfold Turn.event Host.after
    simp only
    split
    next => exact ⟨number, s, hsole⟩
    next outcome hrestart => exact hsole.restart hrestart
  | ask other q =>
    obtain ⟨s', hs'⟩ := hsole.ask other q
    exact ⟨number, s', hs'⟩
  | refuse refusals =>
    exact ⟨number, s, hsole.current, hsole.kept, hsole.recorded, hsole.others_closed,
      hsole.numbered⟩

theorem Sole.afterTurns (hsole : h.Sole number s) (turns : List Turn) :
    ∃ number' s', (h.afterTurns turns).Sole number' s' := by
  induction turns generalizing h number s with
  | nil => exact ⟨number, s, hsole⟩
  | cons turn turns ih =>
    obtain ⟨number', s', hnext⟩ := hsole.turn turn
    exact ih hnext

/-- A broker opened on a log that refuses nothing, and what happened since. -/
def openedOn (seed : List JournalEntry) (settings : BrokerSettings) (nonce : UInt64)
    (shared : Option Mailboxes) (turns : List Turn) : Host MemoryLog Unit :=
  ((fresh settings nonce shared { entries := seed }).after .start).afterTurns turns

theorem sole_start (seed : List JournalEntry) (settings : BrokerSettings) (nonce : UInt64)
    (shared : Option Mailboxes) :
    ∃ number s, (openedOn seed settings nonce shared []).Sole number s := by
  rcases Broker.openOn_memory settings nonce (shared.getD .empty) { entries := seed } with
    ⟨e, -, hrefused⟩ | ⟨b, entries, heq, -, hb, -⟩
  · exact absurd rfl hrefused
  · have hopen : openedOn seed settings nonce shared [] =
        ({ (fresh settings nonce shared ({ entries := seed } : MemoryLog)).drawNonce with
          medium := { entries } } : Host MemoryLog Unit).install b := by
      show (Host.open _).2 = _
      unfold Host.open
      simp only [fresh, heq]
    rw [hopen]
    have hlook := ByNumber.getElem?_insert (∅ : Std.ExtTreeMap Nat (Server Unit) compare) 0
    refine ⟨0, { broker := b }, rfl, (hlook 0 _).trans (if_pos rfl), hb, ?_, ?_⟩
    · intro other t ht hne
      have ht := (hlook other _).symm.trans ht
      rw [if_neg (Ne.symm hne)] at ht
      simp at ht
    · intro other t ht
      have ht := (hlook other _).symm.trans ht
      split at ht
      next hsame => exact hsame ▸ Nat.zero_lt_one
      next => simp at ht

/-- On whatever log a broker is opened, and whatever happens from then on while nobody else writes
the log: at the end another broker may be opened on the log as it stands, replaying it passes
nothing over, and what is found is exactly the durable part of the current topology. -/
theorem recovery_exact (seed : List JournalEntry) (settings : BrokerSettings) (nonce : UInt64)
    (shared : Option Mailboxes) (turns : List Turn) :
    ∃ s, (openedOn seed settings nonce shared turns).current? = some s ∧
      (∀ flag ∈ DurableState.empty.applied
        ((openedOn seed settings nonce shared turns).medium.entries.flatMap JournalEntry.ops),
          flag = true) ∧
      ∀ settings' nonce' mailboxes', ∃ b m, Broker.openOn settings' nonce' mailboxes'
          ({ entries := (openedOn seed settings nonce shared turns).medium.entries } : MemoryLog) =
            (.ok b, m) ∧
        b.live.topology.Recovers s.broker.live.topology := by
  obtain ⟨number, s, hstart⟩ := sole_start seed settings nonce shared
  obtain ⟨number, s, hsole⟩ : ∃ number s,
      (openedOn seed settings nonce shared turns).Sole number s := hstart.afterTurns turns
  obtain ⟨t, ht, mailboxes, hbroker⟩ := exists_server? hsole.kept
  refine ⟨t, ?_, hsole.recorded.replays.2, ?_⟩
  · rw [current?, hsole.current]
    exact ht
  · intro settings' nonce' mailboxes'
    rcases Broker.openOn_memory settings' nonce' mailboxes'
        { entries := (openedOn seed settings nonce shared turns).medium.entries } with
      ⟨e, -, hrefused⟩ | ⟨b, entries, heq, htopology, -, -⟩
    · exact absurd rfl hrefused
    · refine ⟨b, _, heq, ?_⟩
      rw [htopology, hbroker]
      exact Topology.recovers_restore (DurableState.closed_ofEntries _) hsole.recorded.wellFormed
        hsole.recorded.describes

end Host

end BrokerTopology
