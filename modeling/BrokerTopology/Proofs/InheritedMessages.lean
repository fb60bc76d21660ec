/-
  BrokerTopology.Proofs.InheritedMessages — whose messages a new queue
  finds.

  Messages are kept by the name of their queue.  A queue that is deleted
  takes its messages along, whatever it is that deletes it.  But a queue
  that is on no log is not deleted at a restart: it just is not there any
  more.  By default no message is there any more either.  If messages are
  handed on, though, those of a queue that was lost are handed on too, and
  are found by whoever declares a queue of its name next.

  There is no other way for a new queue to find messages.  One broker at
  most is open at a time, the current one, and what it has in memory is
  followed from event to event: `LiveState.Leaves` says what becomes of
  messages under names that no queue has, and `LeftBehind` where such
  messages come from.

  Main statements:
    * `Server.serve_leaves` — no request leaves messages behind.
    * `Host.Lone.after` — what an event makes of the current broker.
    * `Host.declared_messages` — what a new queue finds, in every run.
-/
import BrokerTopology.Proofs.Deliveries
import BrokerTopology.Proofs.RetiredBrokers
import Mathlib.Data.List.Induction

namespace BrokerTopology

/-! ## §1. Operations -/

namespace LiveState

/-- What waits under names that no queue has: nothing, or what waited there before, when no queue
had the name either. -/
def Leaves (s s' : LiveState) : Prop :=
  ∀ queue, s'.topology.registry.hasQueue queue = false →
    s'.mailboxes.pending queue = [] ∨
      s.topology.registry.hasQueue queue = false ∧
        s'.mailboxes.pending queue = s.mailboxes.pending queue

variable {s s' s'' : LiveState}

theorem Leaves.refl (s : LiveState) : s.Leaves s := fun _ hnone => Or.inr ⟨hnone, rfl⟩

theorem Leaves.trans (h : s.Leaves s') (h' : s'.Leaves s'') : s.Leaves s'' := by
  intro queue hnone
  rcases h' queue hnone with hempty | ⟨hnone', hsame⟩
  · exact Or.inl hempty
  · rw [hsame]
    exact h queue hnone'

/-- A message is put only into queues that are there. -/
theorem hasQueue_of_mem_destinations {matcher : Matcher} {x : Exchange} {key queue : String}
    (h : queue ∈ s.destinations matcher x key) : s.topology.registry.hasQueue queue = true := by
  by_cases hdefault : x.definition.name = Name.defaultExchange
  · obtain ⟨rfl, hq⟩ := (mem_destinations_default hdefault).1 h
    exact hq
  · rw [destinations, if_neg hdefault, Std.ExtTreeSet.mem_filter] at h
    obtain ⟨_, hq⟩ := h
    simpa using hq

/-- What is answered to a declaration is how many messages wait under the name, and they stay. -/
theorem declareQueue_messages {conn : ConnectionId} {d : QueueDef} {passive : Bool}
    {change : Change QueueDeclared} (hd : declareQueue conn d passive s = .ok change) :
    change.answer.messages = (s.mailboxes.pending change.answer.queue).length ∧
      change.live.mailboxes = s.mailboxes := by
  obtain ⟨d', g, -, -, hnamed⟩ := declareQueue_ok hd
  obtain rfl | ⟨-, rfl⟩ := declareNamedQueue_ok hnamed
  · exact ⟨rfl, rfl⟩
  · exact ⟨rfl, rfl⟩

end LiveState

namespace Operation

/-- Whether an operation publishes a message. -/
def publishes : Operation → Bool
  | publish _ => true
  | _ => false

variable {matcher : Matcher} {conn : ConnectionId} {s s' : LiveState} {op : Operation}

theorem Effect.leaves (heffect : Effect matcher conn s op s') : s.Leaves s' := by
  intro queue hnone
  cases hop : op.handlesMessages with
  | false =>
    rcases heffect.kept_or_dropped hop queue with ⟨hpending, hqueues⟩ | ⟨hpending, -⟩
    · refine Or.inr ⟨Bool.eq_false_iff.2 fun hq => ?_, hpending⟩
      rw [hqueues hq] at hnone
      cases hnone
    · exact Or.inl hpending
  | true =>
    cases heffect with
    | published =>
      refine Or.inr ⟨hnone, ?_⟩
      rw [Mailboxes.pending_deliver, if_neg]
      intro hmem
      rw [LiveState.hasQueue_of_mem_destinations hmem] at hnone
      cases hnone
    | fetched hq =>
      refine Or.inr ⟨hnone, ?_⟩
      rw [Mailboxes.pending_pop, if_neg]
      rintro rfl
      rw [hq] at hnone
      cases hnone
    | purged hq =>
      refine Or.inr ⟨hnone, ?_⟩
      rw [Mailboxes.pending_clear, if_neg]
      rintro rfl
      rw [hq] at hnone
      cases hnone
    | same hmessages =>
      rw [hmessages] at hop
      cases hop
    | removed hr =>
      cases op with
      | publish | fetch | purge => cases hr
      | _ => cases hop
    | _ => cases hop

/-- Where nothing waits, nothing comes of an operation that publishes nothing. -/
theorem Effect.pending_nil (heffect : Effect matcher conn s op s') (hop : op.publishes = false)
    {queue : String} (h : s.mailboxes.pending queue = []) : s'.mailboxes.pending queue = [] := by
  cases hmessages : op.handlesMessages with
  | false =>
    rcases heffect.kept_or_dropped hmessages queue with ⟨hpending, -⟩ | ⟨hpending, -⟩
    · exact hpending.trans h
    · exact hpending
  | true =>
    cases heffect with
    | published => cases hop
    | @fetched name =>
      rw [Mailboxes.pending_pop]
      split
      next hname => rw [hname, h, List.tail_nil]
      next => exact h
    | purged =>
      rw [Mailboxes.pending_clear, h, ite_self]
    | same => exact h
    | removed hr =>
      cases op with
      | publish | fetch | purge => cases hr
      | _ => cases hmessages
    | _ => cases hmessages

end Operation

section

variable {medium handle : Type} [Medium medium handle]

/-! ## §2. Requests -/

namespace Broker

theorem Move.leaves {before after : Broker handle × medium} (h : Move before after)
    (hwf : before.1.live.topology.WellFormed) : before.1.live.Leaves after.1.live := by
  cases h with
  | operation conn op b m =>
    exact perform_live (.refl _) (fun _ _ _ hnone => Or.inr ⟨hnone, rfl⟩)
      (fun _ hchange => (Operation.effect hwf hchange).leaves) m
  | join conn queue b m =>
    exact perform_live (.refl _) (fun _ _ _ hnone => Or.inr ⟨hnone, rfl⟩)
      (fun _ hchange => (LiveState.attachConsumer_effect b.settings.matcher hchange).leaves) m
  | leave queue incarnation b m =>
    exact perform_live (.refl _) (fun _ _ _ hnone => Or.inr ⟨hnone, rfl⟩)
      (fun _ hchange =>
        (LiveState.detachConsumer_effect b.settings.matcher .admin hwf hchange).2.leaves) m
  | release conn queue b m =>
    exact perform_live (.refl _) (fun _ _ _ hnone => Or.inr ⟨hnone, rfl⟩)
      (fun _ hchange => (LiveState.deleteQueue_effect b.settings.matcher hwf hchange).leaves) m
  | compact b m =>
    show b.live.Leaves (b.compact m).2.1.live
    rw [b.compact_live m]
    exact .refl _
  | shutdown b m =>
    show b.live.Leaves (b.shutdown m).2.1.live
    rw [b.shutdown_live m]
    exact .refl _
  | connect b m => exact .refl _

theorem Moves.leaves {before after : Broker handle × medium} (h : Moves before after)
    (hwf : before.1.live.topology.WellFormed) : before.1.live.Leaves after.1.live := by
  induction h with
  | refl => exact .refl _
  | tail hmoves hlast ih => exact ih.trans (hlast.leaves ((Moves.calls hmoves).wellFormed hwf))

theorem Moves.settings {before after : Broker handle × medium} (h : Moves before after) :
    after.1.settings = before.1.settings := by
  induction h with
  | refl => rfl
  | @tail middle _ _ hlast ih =>
    obtain ⟨task, htask⟩ := hlast.exists_task
    rw [← htask, task.carry_settings, ih]

/-- An operation that publishes nothing. -/
theorem run_pending_nil {b : Broker handle} (hwf : b.live.topology.WellFormed)
    {op : Operation} (hop : op.publishes = false) {queue : String}
    (h : b.live.mailboxes.pending queue = []) (conn : ConnectionId) (m : medium) :
    (b.run conn op m).2.1.live.mailboxes.pending queue = [] :=
  perform_live (P := fun s => s.mailboxes.pending queue = []) h (fun _ _ => h)
    (fun _ hchange => (Operation.effect hwf hchange).pending_nil hop h) m

theorem Errands.pending_nil {before after : Broker handle × medium}
    (herrands : Errands before after)
    (hwf : before.1.live.topology.WellFormed) {queue : String}
    (h : before.1.live.mailboxes.pending queue = []) :
    after.1.live.mailboxes.pending queue = [] := by
  induction herrands with
  | refl => exact h
  | tail hbefore hlast ih =>
    have hwf := (Errands.calls hbefore).wellFormed hwf
    cases hlast with
    | join conn name b m =>
      exact perform_live (P := fun s => s.mailboxes.pending queue = []) ih (fun _ _ => ih)
        (fun _ hchange =>
          (LiveState.attachConsumer_effect b.settings.matcher hchange).pending_nil rfl ih) m
    | leave name incarnation b m =>
      exact perform_live (P := fun s => s.mailboxes.pending queue = []) ih (fun _ _ => ih)
        (fun _ hchange => (LiveState.detachConsumer_effect b.settings.matcher .admin hwf
          hchange).2.pending_nil rfl ih) m
    | release conn name b m =>
      exact perform_live (P := fun s => s.mailboxes.pending queue = []) ih (fun _ _ => ih)
        (fun _ hchange =>
          (LiveState.deleteQueue_effect b.settings.matcher hwf hchange).pending_nil rfl ih) m

/-- A restart that succeeds hands the messages on, or none. -/
theorem restart_ok {b other : Broker handle} {nonce : UInt64} {m : medium}
    (h : (b.restart nonce m).1 = .ok other) :
    other.live.topology.WellFormed ∧ other.settings = b.settings ∧
      other.live.mailboxes =
        if b.settings.keepsMessages then b.live.mailboxes else .empty := by
  have hshut := b.shutdown_eq m
  unfold restart at h
  split at h
  next => cases h
  next b' m' hshutdown =>
    rw [hshutdown] at hshut
    replace hshut : b' = { b with log := none } := hshut
    subst hshut
    have hwf := openOn_wellFormed h
    obtain ⟨log, entries, -, rfl⟩ := openOn_log h
    exact ⟨hwf, rfl, rfl⟩

end Broker

/-- The operation that a request is, and the connection that it comes on. -/
def Server.Request.operation? : Server.Request → Option (ConnectionId × Operation)
  | operation op => some (.admin, op)
  | onChannel conn _ op => some (conn, op)
  | _ => none

/-- Whether a request publishes a message. -/
def Server.Request.publishes (q : Server.Request) : Bool :=
  q.operation?.any fun o => o.2.publishes

namespace Server

open Broker

variable {s : Server handle}

theorem serve_leaves (hwf : s.broker.live.topology.WellFormed) (m : medium) (q : Request) :
    s.broker.live.Leaves (s.serve m q).2.1.broker.live :=
  (s.serve_moves m q).leaves hwf

/-- Where nothing waits, nothing comes of a request that publishes nothing. -/
theorem serve_pending_nil (hwf : s.broker.live.topology.WellFormed) {q : Request}
    (hq : q.publishes = false) {queue : String}
    (h : s.broker.live.mailboxes.pending queue = []) (m : medium) :
    (s.serve m q).2.1.broker.live.mailboxes.pending queue = [] := by
  let holds : Broker handle × medium → Prop := fun r => r.1.live.mailboxes.pending queue = []
  have hbefore : holds (s.broker, m) := h
  show holds (brokerAfter (s.serve m q))
  cases q with
  | operation op => exact run_pending_nil hwf hq h _ m
  | compact =>
    show (s.broker.compact m).2.1.live.mailboxes.pending queue = []
    rwa [s.broker.compact_live m]
  | shutdown =>
    show (s.broker.shutdown m).2.1.live.mailboxes.pending queue = []
    rwa [s.broker.shutdown_live m]
  | connect => exact h
  | openChannel conn => exact onConnection_cases hbefore fun c => h
  | closeConnection conn =>
    exact onConnection_cases hbefore fun c =>
      (c.close_errands s.broker m).pending_nil hwf h
  | onChannel conn channel op =>
    exact onChannel_cases hbefore fun c => run_pending_nil hwf hq h _ m
  | consume conn channel name =>
    exact onChannel_cases hbefore fun c =>
      (c.consume_errands channel name s.broker m).pending_nil hwf h
  | cancel conn channel tag =>
    exact onChannel_cases hbefore fun c =>
      (c.cancel_errands channel tag s.broker m).pending_nil hwf h
  | closeChannel conn channel =>
    exact onChannel_cases hbefore fun c =>
      (c.closeChannel_errands channel s.broker m).pending_nil hwf h

/-- An operation that is answered was carried out. -/
theorem serve_operation {q : Request} {conn : ConnectionId} {op : Operation}
    (hq : q.operation? = some (conn, op)) {m : medium} {a : Answer}
    (h : (s.serve m q).1 = .ok (.answer a)) :
    (s.broker.run conn op m).1 = .ok a ∧
      (s.serve m q).2.1.broker = (s.broker.run conn op m).2.1 := by
  have hanswer : ∀ {result : Except Refusal Answer},
      result.map Reply.answer = .ok (.answer a) → result = .ok a := by
    intro result hresult
    cases result with
    | error e => cases hresult
    | ok a' =>
      injection hresult with hresult
      injection hresult with hresult
      rw [hresult]
  cases q with
  | operation op' =>
    cases hq
    exact ⟨hanswer h, rfl⟩
  | onChannel conn' channel op' =>
    cases hq
    unfold serve onChannel onConnection at h ⊢
    simp only at h ⊢
    cases hc : s.connection? conn with
    | none =>
      rw [hc] at h
      cases h
    | some c =>
      simp only [hc] at h ⊢
      split at h
      next hopen =>
        rw [if_pos hopen]
        exact ⟨hanswer h, rfl⟩
      next => cases h
  | _ => cases hq

end Server

/-! ## §3. One broker at a time -/

namespace Host

open Server

/-- Whether an event publishes a message. -/
def Event.publishes : Event medium → Bool
  | .ask _ q => q.publishes
  | .start | .probe | .restart | .disturb _ => false

/-- Whether an event opens a broker in the place of the current one. -/
def Event.starts : Event medium → Bool
  | .start => true
  | .probe | .restart | .ask .. | .disturb _ => false

/-- Every broker but the current one is shut down, and messages are handed on at a restart, in
common, or not at all. -/
structure Lone (custom : Bool) (h : Host medium handle) : Prop where
  numbered : h.Numbered
  sound : h.Sound
  others_closed : ∀ (number : Nat) s, h.servers[number]? = some s → h.current ≠ some number →
    s.broker.log = none
  keeps : ∀ (number : Nat) s, h.servers[number]? = some s →
    s.broker.settings.keepsMessages = custom
  shared : h.shared.isSome = custom

/-- What an event makes of what the current broker has in memory. -/
inductive Turned (custom : Bool) (e : Event medium) (s s' : LiveState) : Prop
  | kept (hleaves : s.Leaves s') (hempty : e.publishes = false → ∀ queue,
      s.mailboxes.pending queue = [] → s'.mailboxes.pending queue = [])
  | restarted (he : e = .restart) (hpending : ∀ queue, s'.mailboxes.pending queue =
      if custom then s.mailboxes.pending queue else [])

theorem Turned.same (custom : Bool) (e : Event medium) (s : LiveState) : Turned custom e s s :=
  .kept (.refl s) fun _ _ => id

variable {custom : Bool} {h : Host medium handle} {number : Nat} {s : Server handle}

omit [Medium medium handle] in
theorem Lone.server? (hlone : h.Lone custom) (hs : h.server? number = some s) :
    s.broker.live.topology.WellFormed ∧ s.broker.settings.keepsMessages = custom ∧
      (h.current ≠ some number → s.broker.log = none) := by
  have hwf := hlone.sound.server? hs
  obtain ⟨kept, hkept, -, mailboxes, hbroker⟩ := server?_eq_some hs
  refine ⟨hwf, ?_, ?_⟩
  · rw [hbroker]
    exact hlone.keeps number kept hkept
  · rw [hbroker]
    exact hlone.others_closed number kept hkept

omit [Medium medium handle] in
theorem Lone.disturb (hlone : h.Lone custom) (nonce : UInt64) (m : medium) :
    ({ h with medium := m, nonce } : Host medium handle).Lone custom :=
  ⟨hlone.numbered, hlone.sound, hlone.others_closed, hlone.keeps, hlone.shared⟩

omit [Medium medium handle] in
theorem Lone.keep (hlone : h.Lone custom) (hs : h.server? number = some s) {s' : Server handle}
    (hwf : s'.broker.live.topology.WellFormed)
    (hkeeps : s'.broker.settings.keepsMessages = custom)
    (hclosed : h.current ≠ some number → s'.broker.log = none) (m : medium) :
    (h.keep number s' m).Lone custom where
  numbered := hlone.numbered.keep hs s' m
  sound := Every.insert hlone.sound rfl hwf
  others_closed other t ht hother := by
    rw [Host.keep, ByNumber.getElem?_insert] at ht
    split at ht
    next hsame =>
      injection ht with ht
      exact ht ▸ hclosed (hsame ▸ hother)
    next => exact hlone.others_closed other t ht hother
  keeps other t ht := by
    rw [Host.keep, ByNumber.getElem?_insert] at ht
    split at ht
    next =>
      injection ht with ht
      exact ht ▸ hkeeps
    next => exact hlone.keeps other t ht
  shared := by
    show (h.shared.map _).isSome = custom
    rw [Option.isSome_map, hlone.shared]

omit [Medium medium handle] in
/-- The next broker takes over when all others are shut down. -/
theorem Lone.install (hlone : h.Lone custom)
    (hclosed : ∀ (number : Nat) s, h.servers[number]? = some s → s.broker.log = none)
    {b : Broker handle} (hwf : b.live.topology.WellFormed)
    (hkeeps : b.settings.keepsMessages = custom) : (h.install b).Lone custom where
  numbered := hlone.numbered.install b
  sound := Every.insert hlone.sound rfl hwf
  others_closed other t ht hother := by
    rw [Host.install, ByNumber.getElem?_insert] at ht
    split at ht
    next hsame => exact absurd (congrArg some hsame) hother
    next => exact hclosed other t ht
  keeps other t ht := by
    rw [Host.install, ByNumber.getElem?_insert] at ht
    split at ht
    next =>
      injection ht with ht
      exact ht ▸ hkeeps
    next => exact hlone.keeps other t ht
  shared := hlone.shared

/-- The current broker is asked, or one that is shut down. -/
theorem Lone.ask (hlone : h.Lone custom) (number : Nat) (q : Request) :
    (h.ask number q).2.Lone custom ∧ ∀ s', (h.ask number q).2.current? = some s' →
      ∃ s, h.current? = some s ∧
        Turned custom (.ask number q : Event medium) s.broker.live s'.broker.live := by
  cases hs : h.server? number with
  | none =>
    rw [ask_of_no_server hs]
    exact ⟨hlone, fun s' hs' => ⟨s', hs', .same _ _ _⟩⟩
  | some s =>
    obtain ⟨hwf, hkeeps, hclosed⟩ := hlone.server? hs
    have hmoves := s.serve_moves h.medium q
    have hafter : (h.keep number (s.serve h.medium q).2.1 (s.serve h.medium q).2.2).Lone custom :=
      hlone.keep hs (hmoves.calls.wellFormed hwf)
        ((congrArg BrokerSettings.keepsMessages hmoves.settings).trans hkeeps)
        (fun hother => (s.serve_closed (hclosed hother) h.medium q).1) _
    rw [ask_of_server? hs]
    refine ⟨hafter, ?_⟩
    intro s' hs'
    by_cases hcurrent : h.current = some number
    · replace hs' : h.current.bind (h.keep number _ _).server? = some s' := hs'
      rw [hcurrent, Option.bind_some, server?_keep] at hs'
      injection hs' with hs'
      subst hs'
      refine ⟨s, by rw [current?, hcurrent]; exact hs, .kept (serve_leaves hwf _ _) ?_⟩
      intro hq queue hempty
      exact serve_pending_nil hwf hq hempty _
    · -- asked in vain, for it is shut down
      have hretired : h.Retired number := by
        refine ⟨?_, hcurrent, hlone.numbered.server? hs⟩
        intro t ht
        exact hlone.others_closed number t ht hcurrent
      obtain ⟨hstill, hwithout⟩ := ask_retired hretired q
      rw [ask_of_server? hs] at hstill hwithout
      rw [← hstill.current?_without, hwithout, hretired.current?_without] at hs'
      exact ⟨s', hs', .same _ _ _⟩

omit [Medium medium handle] in
/-- The next broker is found with the messages in common, if there are any. -/
theorem current?_install (h : Host medium handle) (b : Broker handle) :
    (h.install b).current? =
      some { broker :=
        match h.shared with
        | none => b
        | some mailboxes => b.withMailboxes mailboxes } := by
  show (h.install b).server? h.nextServer = _
  unfold server? Host.install
  rw [ByNumber.getElem?_insert, if_pos rfl]
  cases h.shared with
  | none => rfl
  | some mailboxes => rfl

/-- The next broker is handed the messages, or none. -/
theorem Lone.restart (hlone : h.Lone custom)
    {outcome : Outcome (Host medium handle) Refusal Unit} (hrestart : h.restart = some outcome) :
    outcome.2.Lone custom ∧ ∀ s', outcome.2.current? = some s' →
      ∃ s, h.current? = some s ∧
        Turned custom (.restart : Event medium) s.broker.live s'.broker.live := by
  cases hcurrent : h.current? with
  | none =>
    rw [restart_of_no_current hcurrent] at hrestart
    cases hrestart
  | some s =>
    obtain ⟨number, hnumber, hs⟩ := current?_eq_some hcurrent
    obtain ⟨result, m, hresult, heq⟩ := restart_eq hnumber hs
    obtain rfl := Option.some.inj (hrestart.symm.trans heq)
    obtain ⟨hwf, hkeeps, -⟩ := hlone.server? hs
    let shut : Server handle := { s with broker := { s.broker with log := none } }
    have hshutdown : shut.broker.live.topology.WellFormed := hwf
    have hshut := hlone.keep hs hshutdown hkeeps (fun _ => rfl) m
    have hkept : (h.keep number shut m).drawNonce.Lone custom := hshut.disturb _ _
    cases result with
    | error e =>
      refine ⟨hkept, ?_⟩
      intro s' hs'
      replace hs' : h.current.bind (h.keep number shut m).server? = some s' := hs'
      rw [hnumber, Option.bind_some, server?_keep] at hs'
      injection hs' with hs'
      subst hs'
      exact ⟨s, rfl, .same _ _ _⟩
    | ok other =>
      obtain ⟨hwf', hsettings, hmailboxes⟩ :=
        Broker.restart_ok (congrArg Prod.fst hresult : (s.broker.restart _ _).1 = .ok other)
      have hclosed : ∀ (n : Nat) t, (h.keep number shut m).drawNonce.servers[n]? = some t →
          t.broker.log = none := by
        intro n t ht
        replace ht : (h.servers.insert number shut)[n]? = some t := ht
        rw [ByNumber.getElem?_insert] at ht
        split at ht
        next =>
          injection ht with ht
          rw [← ht]
        next hne =>
          refine hlone.others_closed n t ht ?_
          rw [hnumber]
          exact fun hsame => hne (Option.some.inj hsame)
      refine ⟨hkept.install hclosed hwf' (hsettings ▸ hkeeps), ?_⟩
      intro s' hs'
      refine ⟨s, rfl, .restarted rfl fun queue => ?_⟩
      have hinstalled := current?_install (h.keep number shut m).drawNonce other
      replace hs' := Option.some.inj (hs'.symm.trans hinstalled)
      have hshared := hlone.shared
      rw [hkeeps] at hmailboxes
      subst hs'
      cases hmail : h.shared with
      | none =>
        have hnone : (h.keep number shut m).drawNonce.shared = none := by
          show h.shared.map _ = none
          rw [hmail, Option.map_none]
        rw [hmail] at hshared
        rw [← hshared] at hmailboxes ⊢
        simp only [hnone, hmailboxes]
        rfl
      | some boxes =>
        have hsome : (h.keep number shut m).drawNonce.shared = some s.broker.live.mailboxes := by
          show h.shared.map _ = _
          rw [hmail, Option.map_some]
        rw [hmail] at hshared
        rw [← hshared]
        simp only [hsome]
        rfl

/-- What an event makes of the current broker, and of the others. -/
theorem Lone.after (hlone : h.Lone custom) {e : Event medium} (he : e.starts = false) :
    (h.after e).Lone custom ∧ ∀ s', (h.after e).current? = some s' →
      ∃ s, h.current? = some s ∧ Turned custom e s.broker.live s'.broker.live := by
  cases e with
  | start => cases he
  | probe =>
    show h.openBeside.2.Lone custom ∧ ∀ s', h.openBeside.2.current? = some s' → _
    unfold Host.openBeside
    simp only
    split
    next => exact ⟨hlone.disturb _ _, fun s' hs' => ⟨s', hs', .same _ _ _⟩⟩
    next => exact ⟨hlone.disturb _ _, fun s' hs' => ⟨s', hs', .same _ _ _⟩⟩
  | restart =>
    unfold Host.after
    simp only
    split
    next => exact ⟨hlone, fun s' hs' => ⟨s', hs', .same _ _ _⟩⟩
    next outcome hrestart => exact hlone.restart hrestart
  | ask number q => exact hlone.ask number q
  | disturb m => exact ⟨hlone.disturb _ _, fun s' hs' => ⟨s', hs', .same _ _ _⟩⟩

/-- A host without brokers, whose brokers will have their messages in common and hand them on, or
not. -/
def bare (custom : Bool) (settings : BrokerSettings) (nonce : UInt64) (first : medium) :
    Host medium handle :=
  fresh { settings with keepsMessages := custom } nonce (if custom then some .empty else none) first

omit [Medium medium handle] in
theorem lone_bare (custom : Bool) (settings : BrokerSettings) (nonce : UInt64) (first : medium) :
    (bare custom settings nonce first : Host medium handle).Lone custom where
  numbered := numbered_fresh _ _ _ _
  sound := sound_fresh _ _ _ _
  others_closed number s hs _ := every_fresh (fun s => s.broker.log = none) _ _ _ _ number s hs
  keeps := every_fresh (fun s => s.broker.settings.keepsMessages = custom) _ _ _ _
  shared := by cases custom <;> rfl

/-- The first broker starts without messages. -/
theorem lone_start (custom : Bool) (settings : BrokerSettings) (nonce : UInt64) (first : medium) :
    let h : Host medium handle := (bare custom settings nonce first).after .start
    h.Lone custom ∧ ∀ s, h.current? = some s →
      ∀ queue, s.broker.live.mailboxes.pending queue = [] := by
  intro h
  have hbare : (bare custom settings nonce first : Host medium handle).Lone custom :=
    lone_bare custom settings nonce first
  obtain ⟨result, m, hopen, heq⟩ := (bare custom settings nonce first : Host medium handle).open_eq
  have hh : h = (({ (bare custom settings nonce first).drawNonce with medium := m } :
      Host medium handle).succeed result).2 := congrArg Prod.snd heq
  have hdrawn := hbare.disturb (nonce + 1) m
  cases result with
  | error e =>
    rw [hh]
    exact ⟨hdrawn, nofun⟩
  | ok b =>
    have hb := congrArg Prod.fst hopen
    have hwf := Broker.openOn_wellFormed hb
    obtain ⟨log, entries, -, rfl⟩ := Broker.openOn_log hb
    rw [hh]
    refine ⟨hdrawn.install (fun number s hs => ?_) hwf rfl, ?_⟩
    · replace hs : (∅ : Std.ExtTreeMap Nat (Server handle) compare)[number]? = some s := hs
      simp at hs
    · intro s hs queue
      replace hs := Option.some.inj (hs.symm.trans (current?_install _ _))
      subst hs
      cases custom with
      | false => rfl
      | true => rfl

/-! ## §4. What a new queue finds -/

/-- These messages waited in a queue when the broker was restarted; the queue was not there after
that, and no queue of its name was at any time since. -/
def LeftBehind (h : Host medium handle) (events : List (Event medium)) (queue : String)
    (messages : List Message) : Prop :=
  ∃ earlier later s, events = earlier ++ .restart :: later ∧
    (h.afterAll earlier).current? = some s ∧
    s.broker.live.topology.registry.hasQueue queue = true ∧
    s.broker.live.mailboxes.pending queue = messages ∧
    ∀ between, between <+: later → ∀ t,
      (h.afterAll (earlier ++ .restart :: between)).current? = some t →
        t.broker.live.topology.registry.hasQueue queue = false

theorem LeftBehind.concat {events : List (Event medium)} {queue : String}
    {messages : List Message} (hleft : h.LeftBehind events queue messages) {e : Event medium}
    (hnone : ∀ t, (h.afterAll (events ++ [e])).current? = some t →
      t.broker.live.topology.registry.hasQueue queue = false) :
    h.LeftBehind (events ++ [e]) queue messages := by
  obtain ⟨earlier, later, s, rfl, hs, hq, hpending, hsince⟩ := hleft
  refine ⟨earlier, later ++ [e], s, by simp, hs, hq, hpending, ?_⟩
  intro between hbetween t ht
  rcases List.prefix_concat_iff.1 hbetween with rfl | hbetween
  · exact hnone t (by simpa using ht)
  · exact hsince between hbetween t ht

theorem afterAll_concat (h : Host medium handle) (events : List (Event medium))
    (e : Event medium) : h.afterAll (events ++ [e]) = (h.afterAll events).after e :=
  List.foldl_concat _ _ _ _

/-- Where no queue is, nothing waits, or what a restart has left behind. -/
structure Accounted (custom : Bool) (h : Host medium handle) (events : List (Event medium)) :
    Prop where
  lone : (h.afterAll events).Lone custom
  left : ∀ s, (h.afterAll events).current? = some s → ∀ queue,
    s.broker.live.topology.registry.hasQueue queue = false →
      s.broker.live.mailboxes.pending queue = [] ∨
        custom = true ∧ h.LeftBehind events queue (s.broker.live.mailboxes.pending queue)

theorem Accounted.concat {events : List (Event medium)} (haccounted : Accounted custom h events)
    {e : Event medium} (he : e.starts = false) : Accounted custom h (events ++ [e]) := by
  obtain ⟨hlone, hturned⟩ := haccounted.lone.after he
  rw [← afterAll_concat] at hlone hturned
  refine ⟨hlone, ?_⟩
  intro s' hs' queue hnone
  obtain ⟨s, hs, hturned⟩ := hturned s' hs'
  have hsince : ∀ t, (h.afterAll (events ++ [e])).current? = some t →
      t.broker.live.topology.registry.hasQueue queue = false := by
    intro t ht
    rw [hs'] at ht
    exact Option.some.inj ht ▸ hnone
  -- what was left behind before still is
  have hstill : ∀ {messages}, s.broker.live.topology.registry.hasQueue queue = false →
      messages = s.broker.live.mailboxes.pending queue →
      messages = [] ∨ custom = true ∧ h.LeftBehind (events ++ [e]) queue messages := by
    rintro _ hnone' rfl
    exact (haccounted.left s hs queue hnone').imp_right fun hleft =>
      ⟨hleft.1, hleft.2.concat hsince⟩
  cases hturned with
  | kept hleaves =>
    rcases hleaves queue hnone with hempty | ⟨hnone', hsame⟩
    · exact Or.inl hempty
    · exact hstill hnone' hsame
  | restarted he hpending =>
    subst he
    have hpending := hpending queue
    cases custom with
    | false => exact Or.inl hpending
    | true =>
      cases hq : s.broker.live.topology.registry.hasQueue queue with
      | false => exact hstill hq hpending
      | true =>
        -- this restart has left them behind
        refine Or.inr ⟨rfl, events, [], s, rfl, hs, hq, hpending.symm, ?_⟩
        intro between hbetween t ht
        rw [List.prefix_nil.1 hbetween] at ht
        exact hsince t ht

theorem accounted (custom : Bool) (settings : BrokerSettings) (nonce : UInt64) (first : medium)
    {events : List (Event medium)} (hevents : ∀ e ∈ events, e.starts = false) :
    Accounted custom (bare custom settings nonce first : Host medium handle)
      (.start :: events) := by
  induction events using List.reverseRecOn with
  | nil =>
    obtain ⟨hlone, hempty⟩ : _ ∧ ∀ s : Server handle, _ := lone_start custom settings nonce first
    exact ⟨hlone, fun s hs queue _ => Or.inl (hempty s hs queue)⟩
  | append_singleton events e ih =>
    have hbefore := ih fun e' he' => hevents e' (List.mem_append_left _ he')
    exact hbefore.concat (hevents e (by simp))

/-- Where nothing waits, nothing will, as long as nothing is published. -/
theorem Lone.afterAll_pending_nil (hlone : h.Lone custom) {queue : String}
    (hempty : ∀ s, h.current? = some s → s.broker.live.mailboxes.pending queue = [])
    {events : List (Event medium)}
    (hevents : ∀ e ∈ events, e.starts = false ∧ e.publishes = false) {s : Server handle}
    (hs : (h.afterAll events).current? = some s) :
    s.broker.live.mailboxes.pending queue = [] := by
  induction events generalizing h with
  | nil => exact hempty s hs
  | cons e events ih =>
    obtain ⟨hstarts, hpublishes⟩ := hevents e List.mem_cons_self
    obtain ⟨hlone', hturned⟩ := hlone.after hstarts
    refine ih hlone' ?_ (fun e' he' => hevents e' (List.mem_cons_of_mem _ he')) hs
    intro s' hs'
    obtain ⟨s, hs, hturned⟩ := hturned s' hs'
    cases hturned with
    | kept _ hstays => exact hstays hpublishes queue (hempty s hs)
    | restarted _ hpending =>
      rw [hpending, hempty s hs, ite_self]

/-- A message that is fetched is the oldest one. -/
theorem fetched_of_ask {q : Request} {conn : ConnectionId} {queue : String}
    (hq : q.operation? = some (conn, .fetch queue)) (hs : h.server? number = some s)
    {found : Option Message} {after : Host medium handle}
    (hfetched : h.ask number q = (.ok (.answer (.message found)), after)) :
    found = (s.broker.live.mailboxes.pending queue).head? := by
  rw [ask_of_server? hs] at hfetched
  obtain ⟨hresult, -⟩ := serve_operation hq (congrArg Prod.fst hfetched)
  obtain ⟨change, hchange, hanswer, -⟩ := Broker.ok_of_perform hresult
  obtain ⟨inner, hinner, rfl⟩ := ok_of_map hchange
  obtain ⟨-, rfl⟩ := LiveState.fetch_ok hinner
  obtain rfl := Answer.message.inj hanswer
  exact Mailboxes.pop_fst _ _

/-- In every run of a broker and those that it is restarted as, with messages that are handed on at
a restart or not, a queue is declared of a name that no queue has.  As many messages wait in it as
is answered; there are none, or they are those that a restart has left behind, where messages are
handed on.  The oldest of them is fetched first; and if there are none, nothing is fetched by
anyone for as long as nothing is published. -/
theorem declared_messages (custom : Bool) (settings : BrokerSettings) (nonce : UInt64)
    (first : medium) {events : List (Event medium)} (hevents : ∀ e ∈ events, e.starts = false)
    {number : Nat} {s : Server handle}
    (hcurrent : ((bare custom settings nonce first).afterAll (.start :: events)).current =
      some number)
    (hs : ((bare custom settings nonce first).afterAll (.start :: events)).server? number = some s)
    {q : Request} {conn : ConnectionId} {d : QueueDef} {passive : Bool} {r : QueueDeclared}
    (hq : q.operation? = some (conn, .declareQueue d passive)) {after : Host medium handle}
    (hdeclared : ((bare custom settings nonce first).afterAll (.start :: events)).ask number q =
      (.ok (.answer (.declared r)), after))
    (hnew : s.broker.live.topology.registry.hasQueue r.queue = false) :
    ∃ messages : List Message, r.messages = messages.length ∧
      (messages = [] ∨ custom = true ∧
        (bare custom settings nonce first : Host medium handle).LeftBehind (.start :: events)
          r.queue messages) ∧
      (∀ q' conn' found last, q'.operation? = some (conn', .fetch r.queue) →
        after.ask number q' = (.ok (.answer (.message found)), last) → found = messages.head?) ∧
      (messages = [] → ∀ later, (∀ e ∈ later, e.starts = false ∧ e.publishes = false) →
        ∀ number' q' conn' found last, (after.afterAll later).current = some number' →
          q'.operation? = some (conn', .fetch r.queue) →
          (after.afterAll later).ask number' q' = (.ok (.answer (.message found)), last) →
            found = none) := by
  obtain ⟨hlone, hleft⟩ : Accounted custom (bare custom settings nonce first : Host medium handle)
    (.start :: events) := accounted custom settings nonce first hevents
  generalize hh : (bare custom settings nonce first : Host medium handle).afterAll
    (.start :: events) = h at hlone hleft hcurrent hs hdeclared
  have hfound : h.current? = some s := by
    rw [current?, hcurrent]
    exact hs
  -- declaring it leaves the messages as they are
  have hafter : after = (h.ask number q).2 := by rw [hdeclared]
  have hlone' : after.Lone custom := hafter ▸ (hlone.ask number q).1
  rw [ask_of_server? hs] at hdeclared hafter
  obtain ⟨hresult, hbroker⟩ := serve_operation hq (congrArg Prod.fst hdeclared)
  obtain ⟨change, hchange, hanswer, hlive⟩ := Broker.ok_of_perform hresult
  obtain ⟨inner, hinner, rfl⟩ := ok_of_map hchange
  obtain rfl : inner.answer = r := Answer.declared.inj hanswer
  obtain ⟨hcount, hmailboxes⟩ := LiveState.declareQueue_messages hinner
  have hserver : after.server? number = some (s.serve h.medium q).2.1 := by
    rw [hafter, server?_keep]
  have hpending : (s.serve h.medium q).2.1.broker.live.mailboxes = s.broker.live.mailboxes := by
    rw [hbroker, Broker.run, hlive]
    exact hmailboxes
  have hcurrent' : after.current? = some (s.serve h.medium q).2.1 := by
    rw [current?, hafter]
    show h.current.bind (h.keep number _ _).server? = _
    rw [hcurrent, Option.bind_some, server?_keep]
  refine ⟨_, hcount, hleft s hfound _ hnew, ?_, ?_⟩
  · intro q' conn' found last hq' hfetched
    rw [← hpending]
    exact fetched_of_ask hq' hserver hfetched
  · intro hempty later hlater number' q' conn' found last hcurrent'' hq' hfetched
    cases hs' : (after.afterAll later).server? number' with
    | none =>
      rw [ask_of_no_server hs'] at hfetched
      cases hfetched
    | some s' =>
      have hfound' : (after.afterAll later).current? = some s' := by
        rw [current?, hcurrent'']
        exact hs'
      have hnothing : s'.broker.live.mailboxes.pending inner.answer.queue = [] := by
        refine hlone'.afterAll_pending_nil ?_ hlater hfound'
        intro t ht
        rw [hcurrent'] at ht
        rw [← Option.some.inj ht, hpending, hempty]
      rw [fetched_of_ask hq' hs' hfetched, hnothing, List.head?_nil]

end Host

end

namespace Host

/-- A queue that is on no log gets a message, and is lost at a restart. -/
def lostQueue : List (Event MemoryLog) :=
  [.ask 0 (.operation (.declareQueue ⟨"t", false, false, false⟩ false)),
    .ask 0 (.operation (.publish ⟨"", "t", ⟨#[7]⟩⟩)), .restart]

/-- Then a connection is made. -/
def nextOwner : List (Event MemoryLog) :=
  [.ask 1 .connect, .ask 1 (.openChannel ⟨1⟩)]

/-- The connection declares a queue of that name for itself alone. -/
theorem declared_messages_of_lost_queue :
    ∃ (after : Host MemoryLog Unit) (messages : List Message),
      ((bare true {} 1 {}).afterAll (.start :: (lostQueue ++ nextOwner))).ask 1
          (.onChannel ⟨1⟩ 1 (.declareQueue ⟨"t", false, true, false⟩ false)) =
        (.ok (.answer (.declared ⟨"t", 1, 0⟩)), after) ∧
      messages.length = 1 ∧
      (bare true {} 1 {} : Host MemoryLog Unit).LeftBehind (.start :: (lostQueue ++ nextOwner)) "t"
        messages := by
  have hevents : ∀ e ∈ lostQueue ++ nextOwner, e.starts = false := by
    intro e he
    simp only [lostQueue, nextOwner, List.cons_append, List.nil_append, List.mem_cons,
      List.not_mem_nil, or_false] at he
    rcases he with rfl | rfl | rfl | rfl | rfl <;> rfl
  obtain ⟨s, hs, hnew⟩ : ∃ s : Server Unit,
      ((bare true {} 1 ({} : MemoryLog)).afterAll
        (.start :: (lostQueue ++ nextOwner))).server? 1 = some s ∧
        s.broker.live.topology.registry.hasQueue "t" = false :=
    ⟨_, (Option.some_get (by decide +kernel)).symm, by decide +kernel⟩
  have hcurrent : ((bare true {} 1 {} : Host MemoryLog Unit).afterAll
      (.start :: (lostQueue ++ nextOwner))).current = some 1 := by decide +kernel
  have hanswer : (((bare true {} 1 {} : Host MemoryLog Unit).afterAll
      (.start :: (lostQueue ++ nextOwner))).ask 1
        (.onChannel ⟨1⟩ 1 (.declareQueue ⟨"t", false, true, false⟩ false))).1 =
      .ok (.answer (.declared ⟨"t", 1, 0⟩)) := by decide +kernel
  have hdeclared := Prod.ext (y := (_, _)) hanswer rfl
  obtain ⟨messages, hcount, hleft, -⟩ :=
    declared_messages true {} 1 ({} : MemoryLog) hevents hcurrent hs rfl hdeclared hnew
  refine ⟨_, messages, hdeclared, hcount.symm, ?_⟩
  rcases hleft with rfl | ⟨-, hleft⟩
  · cases hcount
  · exact hleft

/-- The messages of a queue that was lost are found in one of the same name, which belongs to
another connection. -/
theorem lost_messages_inherited :
    let h : Host MemoryLog Unit :=
      (bare true {} 1 {}).afterAll (.start :: (lostQueue ++ nextOwner))
    let declared := h.ask 1 (.onChannel ⟨1⟩ 1 (.declareQueue ⟨"t", false, true, false⟩ false))
    (h.server? 1).map (fun s => s.broker.live.topology.registry.hasQueue "t") = some false ∧
      declared.1 = .ok (.answer (.declared ⟨"t", 1, 0⟩)) ∧
      (declared.2.ask 1 (.onChannel ⟨1⟩ 1 (.fetch "t"))).1 =
        .ok (.answer (.message (some ⟨"", "t", ⟨#[7]⟩⟩))) := by
  decide +kernel

end Host

end BrokerTopology
