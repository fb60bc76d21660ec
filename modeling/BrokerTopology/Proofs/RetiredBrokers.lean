/-
  BrokerTopology.Proofs.RetiredBrokers — a broker that was restarted is
  out of the way.

  Connections, channels and consumers that were made before a restart
  stay with the broker that was shut down, and may be used as before.
  The numbers that they go by are given out anew by the next broker, and
  the two may have the log and the messages in common.  None of that
  matters: what is asked of the old broker changes the old broker only,
  and no answer of any other depends on it.

  A host is compared with itself less one broker.  Being asked, a retired
  broker changes nothing of what is left; and whatever else happens comes
  to the same there, with the same answers.

  Main statements:
    * `ask_retired` — what is asked of a retired broker stays with it.
    * `Retired.after_without` — no other event depends on it.
    * `restart_isolates` — after a restart, what is asked of the old
      broker may be left out of the run.
-/
import BrokerTopology.Proofs.HostRuns

namespace BrokerTopology

namespace Host

/-! ## §1. What a host answers -/

/-- Whether an event is a request to the broker of a number. -/
def Event.asks {medium : Type} (number : Nat) : Event medium → Bool
  | .ask other _ => other == number
  | .start | .probe | .restart | .disturb _ => false

/-- The events less the requests to the broker of a number. -/
def sparing {medium : Type} (number : Nat) (events : List (Event medium)) : List (Event medium) :=
  events.filter fun e => !e.asks number

variable {medium handle : Type}

/-- What an event is answered with, if with anything. -/
def answer [Medium medium handle] (h : Host medium handle) :
    Event medium → Option (Except Refusal Server.Reply)
  | .start => some (h.open.1.map fun _ => .done)
  | .probe => some (h.openBeside.1.map fun _ => .done)
  | .restart => h.restart.map fun outcome => outcome.1.map fun _ => .done
  | .ask number q => some (h.ask number q).1
  | .disturb _ => none

/-- Events, one after the other, with their answers. -/
def transcript [Medium medium handle] (h : Host medium handle) :
    List (Event medium) → List (Event medium × Option (Except Refusal Server.Reply))
  | [] => []
  | e :: events => (e, h.answer e) :: (h.after e).transcript events

/-! ## §2. A host less one broker -/

/-- The host without the broker of a number. -/
def without (h : Host medium handle) (number : Nat) : Host medium handle :=
  { h with servers := h.servers.erase number }

variable {h : Host medium handle} {old number : Nat}

theorem server?_without (h : Host medium handle) (hne : old ≠ number) :
    (h.without old).server? number = h.server? number := by
  simp [server?, without, Std.ExtTreeMap.getElem?_erase, hne]

/-- What is put in the place that is left out makes no difference. -/
theorem erase_insert_self {α : Type} (m : Std.ExtTreeMap Nat α compare) (old : Nat) (a : α) :
    (m.insert old a).erase old = m.erase old := by
  refine Std.ExtTreeMap.ext_getElem? fun other => ?_
  rw [Std.ExtTreeMap.getElem?_erase, Std.ExtTreeMap.getElem?_erase, ByNumber.getElem?_insert]
  by_cases hother : old = other <;> simp [hother]

theorem erase_insert_of_ne {α : Type} (m : Std.ExtTreeMap Nat α compare) (hne : old ≠ number)
    (a : α) : (m.insert number a).erase old = (m.erase old).insert number a := by
  refine Std.ExtTreeMap.ext_getElem? fun other => ?_
  rw [ByNumber.getElem?_insert, Std.ExtTreeMap.getElem?_erase, Std.ExtTreeMap.getElem?_erase,
    ByNumber.getElem?_insert]
  by_cases hother : old = other
  · simp [← hother, Ne.symm hne]
  · simp [hother]

theorem without_keep (h : Host medium handle) (hne : old ≠ number) (s : Server handle)
    (m : medium) : (h.keep number s m).without old = (h.without old).keep number s m := by
  simp only [without, keep, erase_insert_of_ne _ hne]

/-! ## §3. The next broker -/

/-- What becomes of a host when the next broker was opened, or could not be. -/
def succeed (h : Host medium handle) :
    Except Refusal (Broker handle) → Outcome (Host medium handle) Refusal Unit
  | .error e => (.error e, h)
  | .ok b => (.ok (), h.install b)

/-- To open a broker. -/
theorem open_eq [Medium medium handle] (h : Host medium handle) :
    ∃ result m, Broker.openOn h.settings h.nonce (h.shared.getD .empty) h.medium = (result, m) ∧
      h.open = ({ h.drawNonce with medium := m } : Host medium handle).succeed result := by
  rcases hopen : Broker.openOn h.settings h.nonce (h.shared.getD .empty) h.medium with ⟨result, m⟩
  refine ⟨result, m, rfl, ?_⟩
  unfold Host.open
  rw [hopen]
  cases result with
  | error e => rfl
  | ok b => rfl

theorem current?_eq_some [Medium medium handle] {s : Server handle} (hs : h.current? = some s) :
    ∃ number, h.current = some number ∧ h.server? number = some s :=
  Option.bind_eq_some_iff.1 hs

/-- To restart the current broker: it is shut down and kept. -/
theorem restart_eq [Medium medium handle] {s : Server handle} (hnumber : h.current = some number)
    (hs : h.server? number = some s) :
    ∃ result m, s.broker.restart h.nonce h.medium = (result, { s.broker with log := none }, m) ∧
      h.restart = some ((h.keep number { s with broker := { s.broker with log := none } }
        m).drawNonce.succeed result) := by
  obtain ⟨result, m, heq, -⟩ := s.broker.restart_eq h.nonce h.medium
  rw [Broker.shutdown_eq] at heq
  refine ⟨result, m, heq, ?_⟩
  unfold Host.restart
  simp only [hnumber, hs, Option.map_some, heq]
  cases result with
  | error e => rfl
  | ok other => rfl

theorem restart_of_no_current [Medium medium handle] (hcurrent : h.current? = none) :
    h.restart = none := by
  unfold Host.restart
  rw [Host.current?] at hcurrent
  split
  next => rfl
  next number hnumber =>
    rw [hnumber, Option.bind_some] at hcurrent
    rw [hcurrent, Option.map_none]

/-! ## §4. Retired brokers -/

/-- A broker that was shut down and is not the current one, nor is its number to be given out. -/
structure Retired (h : Host medium handle) (old : Nat) : Prop where
  closed : ∀ s, h.servers[old]? = some s → s.broker.log = none
  not_current : h.current ≠ some old
  numbered : old < h.nextServer

theorem Retired.keep (hold : h.Retired old) {s : Server handle}
    (hs : old = number → s.broker.log = none) (m : medium) : (h.keep number s m).Retired old := by
  refine ⟨?_, hold.not_current, hold.numbered⟩
  intro t ht
  rw [Host.keep, ByNumber.getElem?_insert] at ht
  split at ht
  next hsame =>
    injection ht with ht
    exact ht ▸ hs hsame.symm
  next => exact hold.closed t ht

theorem Retired.ne_of_current (hold : h.Retired old) (hnumber : h.current = some number) :
    old ≠ number :=
  fun hsame => hold.not_current (hsame ▸ hnumber)

/-- The current broker is another. -/
theorem Retired.current?_without (hold : h.Retired old) :
    (h.without old).current? = h.current? := by
  rw [current?, current?]
  show h.current.bind (h.without old).server? = _
  cases hnumber : h.current with
  | none => rfl
  | some number =>
    rw [Option.bind_some, Option.bind_some, server?_without h (hold.ne_of_current hnumber)]

theorem Retired.drawNonce (hold : h.Retired old) : h.drawNonce.Retired old :=
  ⟨hold.closed, hold.not_current, hold.numbered⟩

theorem Retired.disturb (hold : h.Retired old) (m : medium) :
    ({ h with medium := m } : Host medium handle).Retired old :=
  ⟨hold.closed, hold.not_current, hold.numbered⟩

/-- The next broker takes another place. -/
theorem Retired.install (hold : h.Retired old) (b : Broker handle) : (h.install b).Retired old := by
  have hne : h.nextServer ≠ old := Nat.ne_of_gt hold.numbered
  refine ⟨?_, ?_, Nat.lt_succ_of_lt hold.numbered⟩
  · intro t ht
    rw [Host.install, ByNumber.getElem?_insert, if_neg hne] at ht
    exact hold.closed t ht
  · intro hcurrent
    exact hne (Option.some.inj hcurrent)

theorem Retired.succeed (hold : h.Retired old) (result : Except Refusal (Broker handle)) :
    (h.succeed result).2.Retired old := by
  cases result with
  | error e => exact hold
  | ok b => exact hold.install b

/-- The next broker is the same without the retired one. -/
theorem Retired.succeed_without (hold : h.Retired old)
    (result : Except Refusal (Broker handle)) :
    (h.without old).succeed result = ((h.succeed result).1, (h.succeed result).2.without old) := by
  cases result with
  | error e => rfl
  | ok b =>
    simp only [Host.succeed, without, Host.install,
      erase_insert_of_ne _ (Nat.ne_of_lt hold.numbered)]

variable [Medium medium handle]

/-- A retired broker is asked in vain: it stays retired, and nothing else is changed. -/
theorem ask_retired (hold : h.Retired old) (q : Server.Request) :
    (h.ask old q).2.Retired old ∧ (h.ask old q).2.without old = h.without old := by
  unfold Host.ask
  split
  next => exact ⟨hold, rfl⟩
  next s hs =>
    obtain ⟨kept, hkept, -, mailboxes, hbroker⟩ := server?_eq_some hs
    have hclosed : s.broker.log = none := by
      rw [hbroker]
      exact hold.closed kept hkept
    obtain ⟨hlog, hm⟩ := s.serve_closed hclosed h.medium q
    have hlive := s.serve_closed_live hclosed h.medium q
    refine ⟨hold.keep (fun _ => hlog) _, ?_⟩
    -- the messages that it hands back are those that it was lent
    have hshared : (h.shared.map fun _ => (s.serve h.medium q).2.1.broker.live.mailboxes) =
        h.shared := by
      rw [hlive]
      cases hmail : h.shared with
      | none => rfl
      | some boxes =>
        rw [server?, hkept, hmail] at hs
        injection hs with hs
        rw [← hs]
        rfl
    simp only [without, Host.keep, erase_insert_self, hshared, hm]

theorem Retired.open_without (hold : h.Retired old) : h.open.2.Retired old ∧
    (h.without old).open = (h.open.1, h.open.2.without old) := by
  obtain ⟨result, m, hopen, heq⟩ := h.open_eq
  obtain ⟨result', m', hopen', heq'⟩ := (h.without old).open_eq
  obtain ⟨rfl, rfl⟩ : result' = result ∧ m' = m := Prod.mk.inj (hopen'.symm.trans hopen)
  have hdrawn := hold.drawNonce.disturb m'
  rw [heq, heq', ← hdrawn.succeed_without]
  exact ⟨hdrawn.succeed result', rfl⟩

theorem Retired.openBeside_without (hold : h.Retired old) : h.openBeside.2.Retired old ∧
    (h.without old).openBeside = (h.openBeside.1, h.openBeside.2.without old) := by
  rcases hopen : Broker.openOn h.settings h.nonce (h.shared.getD .empty) h.medium with ⟨result, m⟩
  have hopen' : Broker.openOn (h.without old).settings (h.without old).nonce
    ((h.without old).shared.getD .empty) (h.without old).medium = (result, m) := hopen
  unfold Host.openBeside
  rw [hopen, hopen']
  cases result with
  | error e => exact ⟨hold.drawNonce.disturb m, rfl⟩
  | ok b => exact ⟨hold.drawNonce.disturb (b.release m), rfl⟩

theorem Retired.ask_without (hold : h.Retired old) (hne : old ≠ number) (q : Server.Request) :
    (h.ask number q).2.Retired old ∧
      (h.without old).ask number q = ((h.ask number q).1, (h.ask number q).2.without old) := by
  unfold Host.ask
  rw [server?_without h hne]
  split
  next => exact ⟨hold, rfl⟩
  next s _ =>
    refine ⟨hold.keep (absurd · hne) _, ?_⟩
    exact congrArg (Prod.mk _) (without_keep h hne _ _).symm

theorem Retired.restart_without (hold : h.Retired old) :
    (∀ outcome, h.restart = some outcome → outcome.2.Retired old) ∧
      (h.without old).restart =
        h.restart.map fun outcome => (outcome.1, outcome.2.without old) := by
  cases hs : h.current? with
  | none =>
    rw [restart_of_no_current hs, restart_of_no_current (hold.current?_without.trans hs)]
    refine ⟨?_, rfl⟩
    rintro outcome ⟨⟩
  | some s =>
    obtain ⟨number, hnumber, hs⟩ := current?_eq_some hs
    have hne := hold.ne_of_current hnumber
    obtain ⟨result, m, hrestart, heq⟩ := restart_eq hnumber hs
    obtain ⟨result', m', hrestart', heq'⟩ :=
      restart_eq (h := h.without old) hnumber ((server?_without h hne).trans hs)
    obtain ⟨rfl, hm⟩ : result' = result ∧ _ := Prod.mk.inj (hrestart'.symm.trans hrestart)
    obtain rfl : m' = m := (Prod.mk.inj hm).2
    have hkept := (hold.keep (s := { s with broker := { s.broker with log := none } })
      (absurd · hne) m').drawNonce
    rw [heq, heq', ← without_keep h hne, Option.map_some, ← hkept.succeed_without]
    refine ⟨?_, rfl⟩
    intro outcome houtcome
    obtain rfl := Option.some.inj houtcome
    exact hkept.succeed result'

/-- Whatever else happens, a retired broker stays so, and what happens is the same without it. -/
theorem Retired.after_without (hold : h.Retired old) {e : Event medium} (he : e.asks old = false) :
    (h.after e).Retired old ∧ (h.without old).answer e = h.answer e ∧
      (h.without old).after e = (h.after e).without old := by
  cases e with
  | start =>
    obtain ⟨hretired, heq⟩ := hold.open_without
    exact ⟨hretired, by simp only [answer, heq], by simp only [after, heq]⟩
  | probe =>
    obtain ⟨hretired, heq⟩ := hold.openBeside_without
    exact ⟨hretired, by simp only [answer, heq], by simp only [after, heq]⟩
  | restart =>
    obtain ⟨hretired, heq⟩ := hold.restart_without
    unfold after answer
    simp only [heq]
    cases hrestart : h.restart with
    | none => exact ⟨hold, rfl, rfl⟩
    | some outcome => exact ⟨hretired outcome hrestart, rfl, rfl⟩
  | ask number q =>
    have hne : old ≠ number := fun hsame => by simp [Event.asks, hsame] at he
    obtain ⟨hretired, heq⟩ := hold.ask_without hne q
    exact ⟨hretired, by simp only [answer, heq], by simp only [after, heq]⟩
  | disturb m => exact ⟨hold.disturb m, rfl, rfl⟩

/-- Whatever happens, a retired broker stays so. -/
theorem Retired.after (hold : h.Retired old) (e : Event medium) : (h.after e).Retired old := by
  by_cases he : e.asks old = true
  · cases e with
    | ask number q =>
      obtain rfl : number = old := by simpa [Event.asks] using he
      exact (ask_retired hold q).1
    | start | probe | restart | disturb => cases he
  · exact (hold.after_without (by simpa using he)).1

/-! ## §5. Runs -/

theorem Retired.afterAll (hold : h.Retired old) (events : List (Event medium)) :
    (h.afterAll events).Retired old := by
  induction events generalizing h with
  | nil => exact hold
  | cons e events ih => exact ih (hold.after e)

/-- The requests to a retired broker may be left out of a run: the other answers are the same, and
so is all but that broker. -/
theorem Retired.afterAll_without (hold : h.Retired old) (events : List (Event medium)) :
    (h.without old).transcript (sparing old events) =
        (h.transcript events).filter (fun turn => !turn.1.asks old) ∧
      (h.without old).afterAll (sparing old events) = (h.afterAll events).without old := by
  induction events generalizing h with
  | nil => exact ⟨rfl, rfl⟩
  | cons e events ih =>
    by_cases he : e.asks old = true
    · cases e with
      | ask number q =>
        obtain rfl : number = old := by simpa [Event.asks] using he
        obtain ⟨hretired, hwithout⟩ := ask_retired hold q
        obtain ⟨htranscript, hafter⟩ := ih hretired
        rw [sparing, List.filter_cons_of_neg (by simp [he]), ← hwithout]
        refine ⟨htranscript.trans ?_, hafter⟩
        rw [transcript, List.filter_cons_of_neg (by simp [he])]
        rfl
      | start | probe | restart | disturb => cases he
    · have he : e.asks old = false := by simpa using he
      obtain ⟨hretired, hanswer, hwithout⟩ := hold.after_without he
      obtain ⟨htranscript, hafter⟩ := ih hretired
      rw [sparing, List.filter_cons_of_pos (by simp [he]), transcript, transcript,
        List.filter_cons_of_pos (by simp [he]), hanswer, hwithout, ← htranscript]
      exact ⟨rfl, by rw [Host.afterAll, List.foldl_cons, hwithout]; exact hafter⟩

omit [Medium medium handle] in
/-- Hosts that are the same without a broker have every other in common. -/
theorem server?_of_without {h h' : Host medium handle} (heq : h.without old = h'.without old)
    (hne : number ≠ old) : h.server? number = h'.server? number := by
  rw [← server?_without h (Ne.symm hne), heq, server?_without h' (Ne.symm hne)]

/-- A transcript lists the events as they came. -/
theorem transcript_events (h : Host medium handle) (events : List (Event medium)) :
    (h.transcript events).map Prod.fst = events := by
  induction events generalizing h with
  | nil => rfl
  | cons e events ih => rw [transcript, List.map_cons, ih]

/-! ## §6. Restarts -/

/-- A restart shuts the current broker down and keeps it, whether it succeeds or not. -/
theorem restart_outcome {outcome : Outcome (Host medium handle) Refusal Unit}
    (hrestart : h.restart = some outcome) :
    ∃ number s result m, h.current = some number ∧ h.server? number = some s ∧
      outcome = (h.keep number { s with broker := { s.broker with log := none } }
        m).drawNonce.succeed result := by
  cases hs : h.current? with
  | none =>
    rw [restart_of_no_current hs] at hrestart
    cases hrestart
  | some s =>
    obtain ⟨number, hnumber, hs⟩ := current?_eq_some hs
    obtain ⟨result, m, -, heq⟩ := restart_eq hnumber hs
    exact ⟨number, s, result, m, hnumber, hs, Option.some.inj (hrestart.symm.trans heq)⟩

/-- Every broker of a host goes by a number that was given out. -/
def Numbered (h : Host medium handle) : Prop :=
  ∀ (number : Nat) s, h.servers[number]? = some s → number < h.nextServer

omit [Medium medium handle] in
theorem Numbered.server? (hnumbered : h.Numbered) {s : Server handle}
    (hs : h.server? number = some s) : number < h.nextServer := by
  obtain ⟨kept, hkept, -⟩ := server?_eq_some hs
  exact hnumbered number kept hkept

omit [Medium medium handle] in
theorem Numbered.keep (hnumbered : h.Numbered) {s : Server handle}
    (hs : h.server? number = some s) (s' : Server handle) (m : medium) :
    (h.keep number s' m).Numbered := by
  intro other t ht
  rw [Host.keep, ByNumber.getElem?_insert] at ht
  split at ht
  next hsame => exact hsame ▸ hnumbered.server? hs
  next => exact hnumbered other t ht

omit [Medium medium handle] in
theorem Numbered.install (hnumbered : h.Numbered) (b : Broker handle) :
    (h.install b).Numbered := by
  intro other t ht
  rw [Host.install, ByNumber.getElem?_insert] at ht
  split at ht
  next hsame => exact hsame ▸ Nat.lt_succ_self _
  next => exact Nat.lt_succ_of_lt (hnumbered other t ht)

omit [Medium medium handle] in
theorem Numbered.succeed (hnumbered : h.Numbered) (result : Except Refusal (Broker handle)) :
    (h.succeed result).2.Numbered := by
  cases result with
  | error e => exact hnumbered
  | ok b => exact hnumbered.install b

theorem Numbered.after (hnumbered : h.Numbered) (e : Event medium) : (h.after e).Numbered := by
  have hdrawn : ∀ m, ({ h.drawNonce with medium := m } : Host medium handle).Numbered :=
    fun _ => hnumbered
  cases e with
  | start =>
    obtain ⟨result, m, -, heq⟩ := h.open_eq
    show h.open.2.Numbered
    rw [heq]
    exact (hdrawn m).succeed result
  | probe =>
    show h.openBeside.2.Numbered
    unfold Host.openBeside
    simp only
    split
    next => exact hdrawn _
    next => exact hdrawn _
  | restart =>
    unfold Host.after
    simp only
    split
    next => exact hnumbered
    next outcome hrestart =>
      obtain ⟨number, s, result, m, -, hs, rfl⟩ := restart_outcome hrestart
      exact Numbered.succeed (h := (h.keep number _ m).drawNonce) (hnumbered.keep hs _ m) result
  | ask number q =>
    show (h.ask number q).2.Numbered
    unfold Host.ask
    split
    next => exact hnumbered
    next s hs => exact hnumbered.keep hs _ _
  | disturb m => exact hnumbered

theorem Numbered.afterAll (hnumbered : h.Numbered) (events : List (Event medium)) :
    (h.afterAll events).Numbered := by
  induction events generalizing h with
  | nil => exact hnumbered
  | cons e events ih => exact ih (hnumbered.after e)

omit [Medium medium handle] in
theorem numbered_fresh (settings : BrokerSettings) (nonce : UInt64) (shared : Option Mailboxes)
    (m : medium) : (fresh settings nonce shared m : Host medium handle).Numbered := by
  intro number s hs
  simp [fresh] at hs

/-- The broker that was restarted is retired. -/
theorem retired_of_restart (hnumbered : h.Numbered) (hcurrent : h.current = some old)
    {after : Host medium handle} (hrestart : h.restart = some (.ok (), after)) :
    after.Retired old := by
  obtain ⟨number, s, result, m, hnumber, hs, heq⟩ := restart_outcome hrestart
  obtain rfl : number = old := Option.some.inj (hnumber.symm.trans hcurrent)
  cases result with
  | error e => cases heq
  | ok other =>
    injection heq with _ hafter
    have hlt := hnumbered.server? hs
    have hne : h.nextServer ≠ number := Nat.ne_of_gt hlt
    have hkept : after.servers[number]? =
        some { s with broker := { s.broker with log := none } } := by
      rw [hafter]
      show ((h.servers.insert number _).insert h.nextServer _)[number]? = _
      rw [ByNumber.getElem?_insert, if_neg hne, ByNumber.getElem?_insert, if_pos rfl]
    refine ⟨?_, ?_, ?_⟩
    · intro t ht
      rw [hkept] at ht
      injection ht with ht
      rw [← ht]
    · rw [hafter]
      exact fun hsame => hne (Option.some.inj hsame)
    · rw [hafter]
      exact Nat.lt_succ_of_lt hlt

/-- After a restart it makes no difference what is asked of the broker that was shut down, on
whichever of its connections, and when: left out of what happens from then on, all else is answered
the same, and in the end the medium, the messages, and every other broker are the same. -/
theorem restart_isolates (settings : BrokerSettings) (nonce : UInt64) (shared : Option Mailboxes)
    (m : medium) (before : List (Event medium)) {old : Nat} {after : Host medium handle}
    (hcurrent : ((fresh settings nonce shared m).afterAll before).current = some old)
    (hrestart : ((fresh settings nonce shared m).afterAll before).restart = some (.ok (), after))
    (events : List (Event medium)) :
    (after.transcript events).filter (fun turn => !turn.1.asks old) =
        after.transcript (sparing old events) ∧
      (after.afterAll events).medium = (after.afterAll (sparing old events)).medium ∧
      (after.afterAll events).shared = (after.afterAll (sparing old events)).shared ∧
      (after.afterAll events).current? = (after.afterAll (sparing old events)).current? ∧
      ∀ number, number ≠ old → (after.afterAll events).server? number =
        (after.afterAll (sparing old events)).server? number := by
  have hnumbered :
      ((fresh settings nonce shared m : Host medium handle).afterAll before).Numbered :=
    (numbered_fresh settings nonce shared m).afterAll before
  have hretired := retired_of_restart hnumbered hcurrent hrestart
  obtain ⟨hanswers, hrest⟩ := hretired.afterAll_without events
  generalize hothers : sparing old events = others at hanswers hrest ⊢
  have hspared : sparing old others = others := by
    simp [← hothers, sparing, List.filter_filter]
  obtain ⟨hanswers', hrest'⟩ := hretired.afterAll_without others
  rw [hspared] at hanswers' hrest'
  have hsame : (after.afterAll events).without old = (after.afterAll others).without old :=
    hrest.symm.trans hrest'
  have hnone : (after.transcript others).filter (fun turn => !turn.1.asks old) =
      after.transcript others := by
    rw [List.filter_eq_self]
    intro turn hturn
    have hevent : turn.1 ∈ others := by
      rw [← transcript_events after others]
      exact List.mem_map_of_mem hturn
    rw [← hothers] at hevent
    exact (List.mem_filter.1 hevent).2
  refine ⟨?_, congrArg (fun h => h.medium) hsame, congrArg (fun h => h.shared) hsame, ?_,
    fun _ => server?_of_without hsame⟩
  · rw [← hnone, ← hanswers', ← hanswers]
  · rw [← (hretired.afterAll events).current?_without, hsame,
      (hretired.afterAll others).current?_without]

/-- A connection with a queue of its own, and a consumer on that. -/
def firstConnection (number : Nat) : List (Event MemoryLog) :=
  [.ask number .connect, .ask number (.openChannel ⟨1⟩),
    .ask number (.onChannel ⟨1⟩ 1 (.declareQueue ⟨"q", false, true, false⟩ false)),
    .ask number (.consume ⟨1⟩ 1 "q")]

/-- What may still be asked on it after a restart. -/
def oldHandles : List (Event MemoryLog) :=
  [.ask 0 (.cancel ⟨1⟩ 1 "ctag-1.1-1"), .ask 0 (.closeConnection ⟨1⟩), .ask 0 .compact,
    .ask 0 .connect, .ask 0 .shutdown]

/-- After a restart another connection has the same number, a queue of the same name, and a
consumer of the same tag. -/
theorem restart_isolates_of_namesakes :
    ∃ after, ((fresh {} 1 (some .empty) {} : Host MemoryLog Unit).afterAll
        (.start :: firstConnection 0)).restart = some (.ok (), after) ∧
      (after.transcript (firstConnection 1 ++ oldHandles ++
          [.ask 1 (.cancel ⟨1⟩ 1 "ctag-1.1-1")])).filter (fun turn => !turn.1.asks 0) =
        after.transcript (firstConnection 1 ++ [.ask 1 (.cancel ⟨1⟩ 1 "ctag-1.1-1")]) := by
  have hok : ((fresh {} 1 (some .empty) {} : Host MemoryLog Unit).afterAll
      (.start :: firstConnection 0)).restart.any (fun outcome => outcome.1.isOk) = true := by
    decide +kernel
  obtain ⟨⟨_ | _, after⟩, hrestart, hsome⟩ := (Option.any_eq_true _ _).1 hok
  · cases hsome
  · have hcurrent : ((fresh {} 1 (some .empty) {} : Host MemoryLog Unit).afterAll
        (.start :: firstConnection 0)).current = some 0 := by decide +kernel
    have hothers : sparing 0 (firstConnection 1 ++ oldHandles ++
        [.ask 1 (.cancel ⟨1⟩ 1 "ctag-1.1-1")]) =
      firstConnection 1 ++ [.ask 1 (.cancel ⟨1⟩ 1 "ctag-1.1-1")] := rfl
    have hisolated := (restart_isolates {} 1 (some .empty) ({} : MemoryLog)
      (.start :: firstConnection 0) hcurrent hrestart (firstConnection 1 ++ oldHandles ++
        [.ask 1 (.cancel ⟨1⟩ 1 "ctag-1.1-1")])).1
    rw [hothers] at hisolated
    exact ⟨after, hrestart, hisolated⟩

end Host

end BrokerTopology
