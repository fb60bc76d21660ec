/-
  BrokerTopology.Proofs.ExclusiveQueues — an exclusive queue is out of
  reach of other connections.

  Whoever names a queue must be allowed to use it, so an operation of
  another connection never names an exclusive one.  There are four ways
  around a name.  A message can be published to the queue, and an exchange
  deleted that it is bound to.  A cascade takes more than was named, but
  beyond the bindings that it starts from only exchanges without any
  others.  And a consumer leaves a queue without being asked whose it is:
  it leaves the queue that it joined, which its connection could use.

  So the queue is spared by all that another connection does, but for
  messages and for bindings to an exchange that is deleted.

  Main statements:
    * `Operation.Effect.spares` — an operation that names another queue.
    * `Connection.close_spares` — a whole connection that is closed.
    * `Server.exclusive_queue_isolated` — every request of another
      connection, in every run.
-/
import BrokerTopology.Proofs.OperationEffects
import BrokerTopology.Proofs.ServerInvariant

namespace BrokerTopology

namespace LiveState

/-! ## §1. A queue that is spared -/

/-- A queue, its consumers, its bindings and its messages are as they were. -/
structure Spares (s s' : LiveState) (name : String) : Prop where
  queue : s'.topology.registry.queue? name = s.topology.registry.queue? name
  consumers : s'.topology.references.consumersOf name = s.topology.references.consumersOf name
  bindings : ∀ b, b.queue = name → (b ∈ s'.topology.bindings ↔ b ∈ s.topology.bindings)
  pending : s'.mailboxes.pending name = s.mailboxes.pending name

variable {name : String}

theorem Spares.refl (s : LiveState) (name : String) : s.Spares s name :=
  ⟨rfl, rfl, fun _ _ => Iff.rfl, rfl⟩

theorem Spares.trans {s s' s'' : LiveState} (h : s.Spares s' name) (h' : s'.Spares s'' name) :
    s.Spares s'' name where
  queue := h'.queue.trans h.queue
  consumers := h'.consumers.trans h.consumers
  bindings b hb := (h'.bindings b hb).trans (h.bindings b hb)
  pending := h'.pending.trans h.pending

/-- A queue that a connection may not use. -/
structure Foreign (s : LiveState) (conn : ConnectionId) (name : String) (r : Queue) : Prop where
  wellFormed : s.topology.WellFormed
  found : s.topology.registry.queue? name = some r
  closed : r.accessibleBy conn = false

variable {s : LiveState} {conn : ConnectionId} {r : Queue}

/-- Whoever owns a queue, another connection that is no administrative one may not use it. -/
theorem foreign_of_owner (h : s.topology.WellFormed)
    (hfound : s.topology.registry.queue? name = some r) {owner : ConnectionId}
    (howner : r.owner = some owner) (hne : conn ≠ owner) (hadmin : conn ≠ .admin) :
    s.Foreign conn name r := by
  refine ⟨h, hfound, ?_⟩
  rw [Bool.eq_false_iff]
  intro haccess
  rcases (r.accessibleBy_iff hadmin).1 haccess with hnone | hsome
  · rw [howner] at hnone
    cases hnone
  · rw [howner] at hsome
    injection hsome with hsome
    exact hne hsome.symm

/-- What the connection gets hold of is another queue. -/
theorem Foreign.ne_of_queueFor (h : s.Foreign conn name r) {queue : String} {q : Queue}
    (hq : s.queueFor conn queue = .ok q) : queue ≠ name := by
  rintro rfl
  obtain rfl : q = r := Option.some.inj ((queueFor_ok hq).symm.trans h.found)
  have haccess := accessibleBy_of_queueFor hq
  rw [h.closed] at haccess
  cases haccess

/-- So is the queue that one of its consumers leaves. -/
theorem Foreign.ne_of_entitles (h : s.Foreign conn name r) {consumer : Consumer} {q : Queue}
    (hentitled : s.topology.Entitles conn consumer)
    (hq : s.topology.registry.queue? consumer.queue = some q)
    (hsame : consumer.incarnation = q.incarnation) : consumer.queue ≠ name := by
  intro hname
  have hq' := hq
  rw [hname, h.found] at hq'
  injection hq' with hq'
  have haccess := hentitled.accessible q hq hsame.symm
  rw [← hq', h.closed] at haccess
  cases haccess

theorem Foreign.spared (h : s.Foreign conn name r) {s' : LiveState}
    (hwf : s'.topology.WellFormed) (hspared : s.Spares s' name) : s'.Foreign conn name r :=
  ⟨hwf, hspared.queue.trans h.found, h.closed⟩

end LiveState

/-! ## §2. Operations on other queues -/

namespace Operation

open LiveState

variable {matcher : Matcher} {conn : ConnectionId} {s s' : LiveState} {op : Operation}
  {name : String} {r : Queue}

/-- What an operation removes that names another queue, and deletes no exchange. -/
theorem removal_spares (hname : op.queue? ≠ some name) (hleave : op ≠ .detachConsumer name)
    (hexchange : ∀ x ifUnused, op ≠ .deleteExchange x ifUnused) {removal : Removal}
    (hr : op.removal? s.topology = some removal) :
    removal ≠ .queue name ∧ ∀ b : Binding, b.queue = name → removal.covers b = false := by
  have hqueue : ∀ other, other ≠ name → Removal.queue other ≠ .queue name ∧
      ∀ b : Binding, b.queue = name → (Removal.queue other).covers b = false := by
    intro other hne
    refine ⟨fun heq => hne (Removal.queue.inj heq), ?_⟩
    rintro b rfl
    exact beq_eq_false_iff_ne.2 (Ne.symm hne)
  -- what is removed is what was named, or the queue that its last consumer leaves
  cases op with
  | unbind c =>
    injection hr with hr
    subst hr
    refine ⟨by simp, ?_⟩
    rintro b rfl
    refine beq_eq_false_iff_ne.2 ?_
    rintro rfl
    exact hname rfl
  | deleteQueue other ifUnused ifEmpty =>
    injection hr with hr
    subst hr
    exact hqueue other fun heq => hname (by rw [heq]; rfl)
  | deleteExchange x ifUnused => exact absurd rfl (hexchange x ifUnused)
  | detachConsumer other =>
    obtain ⟨-, -, rfl⟩ := last_of_removal? hr
    exact hqueue other fun heq => hleave (by rw [heq])
  | _ => cases hr

/-- An operation that names another queue spares this one, unless it publishes or deletes an
exchange. -/
theorem Effect.spares (heffect : Effect matcher conn s op s') (h : s.Foreign conn name r)
    (hname : op.queue? ≠ some name) (hleave : op ≠ .detachConsumer name)
    (hexchange : ∀ x ifUnused, op ≠ .deleteExchange x ifUnused)
    (hpublish : ∀ message, op ≠ .publish message) : s.Spares s' name := by
  cases heffect with
  | same => exact .refl _ _
  | names => exact ⟨rfl, rfl, fun _ _ => Iff.rfl, rfl⟩
  | exchange => exact ⟨rfl, rfl, fun _ _ => Iff.rfl, rfl⟩
  | @queue _ d' _ g hg _ hnew =>
    -- the name was free, and this queue's is not
    have hother : d'.name ≠ name := by
      rintro rfl
      rw [h.found] at hnew
      cases hnew
    exact ⟨(Topology.queue?_addQueue (s.topology.withGenerator g) d' _ name).trans (if_neg hother),
      rfl, fun _ _ => Iff.rfl, rfl⟩
  | @binding b =>
    obtain ⟨hregistry, hconsumers⟩ := Topology.addBinding_rest s.topology b
    refine ⟨congrArg (·.queue? name) hregistry, congrArg (NameCounts.countOf · name) hconsumers,
      ?_, rfl⟩
    intro c hc
    show c ∈ (s.topology.addBinding b).bindings ↔ _
    rw [Topology.mem_addBinding, or_iff_right]
    -- a binding that is added is one of the queue that was named
    rintro rfl
    exact hname (congrArg some hc)
  | removed hr hs' =>
    obtain ⟨hne, hleft⟩ := removal_spares hname hleave hexchange hr
    refine ⟨by rw [hs'.topology.queues, if_neg hne], by rw [hs'.topology.consumers, if_neg hne],
      ?_, by rw [hs'.pending, if_neg hne]⟩
    intro b hb
    rw [hs'.topology.bindings, hleft b hb, and_iff_left rfl]
  | @published message => exact absurd rfl (hpublish message)
  | @fetched queue =>
    have hother : queue ≠ name := fun heq => hname (congrArg some heq)
    exact ⟨rfl, rfl, fun _ _ => Iff.rfl, by rw [Mailboxes.pending_pop, if_neg hother]⟩
  | @purged queue =>
    have hother : queue ≠ name := fun heq => hname (congrArg some heq)
    exact ⟨rfl, rfl, fun _ _ => Iff.rfl, by rw [Mailboxes.pending_clear, if_neg hother]⟩
  | @joined queue =>
    have hother : queue ≠ name := fun heq => hname (congrArg some heq)
    exact ⟨rfl, (ReferenceCounts.consumersOf_consumerAdded _ queue name).trans (if_neg hother),
      fun _ _ => Iff.rfl, rfl⟩
  | nobodyLeft => exact .refl _ _
  | @left queue _ _ hr _ =>
    have hother : queue ≠ name := fun heq => hleave (by rw [heq])
    obtain ⟨-, hcount, -⟩ := ReferenceCounts.consumersOf_consumerRemoved? hr name
    exact ⟨rfl, hcount.trans (if_neg hother), fun _ _ => Iff.rfl, rfl⟩

end Operation

/-! ## §3. The broker -/

section

variable {medium handle : Type} [Medium medium handle] {conn : ConnectionId} {name : String}
  {r : Queue}

namespace Broker

/-- What is spared if an operation succeeds is spared whatever becomes of it. -/
theorem perform_spares {α : Type} {d : Decision α} {b : Broker handle}
    (hd : ∀ change, d b.live = .ok change → b.live.Spares change.live name) (m : medium) :
    b.live.Spares (b.perform d m).2.1.live name :=
  perform_live (P := fun s => b.live.Spares s name) (.refl _ _)
    (fun _ _ => ⟨rfl, rfl, fun _ _ => Iff.rfl, rfl⟩) hd m

theorem run_spares {b : Broker handle} (h : b.live.Foreign conn name r) {op : Operation}
    (hleave : op ≠ .detachConsumer name) (hexchange : ∀ x ifUnused, op ≠ .deleteExchange x ifUnused)
    (hpublish : ∀ message, op ≠ .publish message) (m : medium) :
    b.live.Spares (b.run conn op m).2.1.live name := by
  refine perform_spares ?_ m
  intro change hchange
  refine (Operation.effect h.wellFormed hchange).spares h ?_ hleave hexchange hpublish
  intro hname
  obtain ⟨q, hq⟩ := Operation.queueFor_of_ok hname hchange
  exact h.ne_of_queueFor hq rfl

/-- To delete an exchange succeeds, or nothing of a queue is changed. -/
theorem deleteExchange_outcome (conn : ConnectionId) (name : String) {b : Broker handle}
    (h : b.live.topology.WellFormed) (x : String) (ifUnused : Bool) (m : medium) :
    let after := b.run conn (.deleteExchange x ifUnused) m
    after.1 = .ok Answer.done ∧ after.2.1.live.Without b.live (.exchange x) ∨
      (∀ a, after.1 ≠ .ok a) ∧ b.live.Spares after.2.1.live name := by
  have hperformed := performed ((Operation.deleteExchange x ifUnused).decide
    b.settings.matcher conn) b m
  show (b.perform _ m).1 = .ok Answer.done ∧ (b.perform _ m).2.1.live.Without b.live (.exchange x) ∨
    (∀ a, (b.perform _ m).1 ≠ .ok a) ∧ b.live.Spares (b.perform _ m).2.1.live name
  generalize b.perform _ m = outcome at hperformed ⊢
  cases hperformed with
  | closed => exact Or.inr ⟨by simp, .refl _ _⟩
  | refused => exact Or.inr ⟨by simp, .refl _ _⟩
  | unrecorded => exact Or.inr ⟨by simp, ⟨rfl, rfl, fun _ _ => Iff.rfl, rfl⟩⟩
  | recorded _ hchange _ =>
    obtain ⟨inner, hinner, rfl⟩ := ok_of_map hchange
    exact Or.inl ⟨rfl, LiveState.deleteExchange_without h hinner⟩

/-- To publish delivers the message to some queues, or does nothing. -/
theorem publish_outcome (conn : ConnectionId) (b : Broker handle) (message : Message)
    (m : medium) :
    let after := b.run conn (.publish message) m
    after.2.1.live = b.live ∨ ∃ queues,
      after.2.1.live = { b.live with mailboxes := b.live.mailboxes.deliver queues message } := by
  have hpublished : ∀ change, (Operation.publish message).decide b.settings.matcher conn b.live =
      .ok change → ∃ queues, change.live =
        { b.live with mailboxes := b.live.mailboxes.deliver queues message } := by
    intro change hchange
    obtain ⟨inner, hinner, rfl⟩ := ok_of_map hchange
    obtain ⟨x, -, rfl⟩ := LiveState.publish_ok hinner
    exact ⟨_, rfl⟩
  refine perform_live (P := fun s => s = b.live ∨ ∃ queues,
    s = { b.live with mailboxes := b.live.mailboxes.deliver queues message }) (Or.inl rfl)
    (fun change hchange => ?_) (fun change hchange => Or.inr (hpublished change hchange)) m
  -- no name is drawn
  obtain ⟨queues, hlive⟩ := hpublished change hchange
  rw [hlive]
  exact Or.inl rfl

/-- What another connection's call leaves of a queue that it may not use. -/
theorem Calls.foreign {before after : Broker handle × medium} (hcalls : Calls before after)
    (h : before.1.live.Foreign conn name r) (hspared : before.1.live.Spares after.1.live name) :
    after.1.live.Foreign conn name r :=
  h.spared (hcalls.wellFormed h.wellFormed) hspared

end Broker

/-! ## §4. Connections -/

namespace Connection

open Broker

theorem consume_spares {c : Connection} {b : Broker handle} (h : b.live.Foreign c.id name r)
    (number : Nat) (queue : String) (m : medium) :
    b.live.Spares (c.consume number queue b m).2.2.1.live name := by
  have hjoin : b.live.Spares
      (b.perform (LiveState.attachConsumer c.id queue) m).2.1.live name := by
    refine perform_spares ?_ m
    intro change hchange
    refine (LiveState.attachConsumer_effect b.settings.matcher hchange).spares h ?_
      (by simp) (by simp) (by simp)
    intro hname
    injection hname with hname
    obtain ⟨q, hq, -⟩ := ok_of_bind hchange
    exact h.ne_of_queueFor hq hname
  rcases c.consume_cases number queue b m with ⟨e, -, heq⟩ | ⟨a, -, heq⟩
  · rw [heq]
    exact hjoin
  · rw [heq]
    exact hjoin

/-- A consumer leaves its own queue. -/
theorem leave_spares {b : Broker handle} (h : b.live.Foreign conn name r) {consumer : Consumer}
    (hentitled : b.live.topology.Entitles conn consumer) (m : medium) :
    b.live.Spares (leave consumer b m).2.1.live name := by
  refine perform_spares ?_ m
  intro change hchange
  obtain ⟨⟨q, hq, hsame⟩, heffect⟩ :=
    LiveState.detachConsumer_effect b.settings.matcher conn h.wellFormed hchange
  have hne := h.ne_of_entitles hentitled hq (hsame _ rfl)
  exact heffect.spares h (by simp [Operation.queue?]) (by simpa using hne) (by simp) (by simp)

theorem leaveAll_spares {b : Broker handle} (h : b.live.Foreign conn name r)
    {consumers : List Consumer}
    (hall : ∀ consumer ∈ consumers, b.live.topology.Entitles conn consumer) (m : medium) :
    b.live.Spares (leaveAll b m consumers).2.1.live name := by
  induction consumers generalizing b m with
  | nil => exact .refl _ _
  | cons consumer consumers ih =>
    have hcalls := (leave_errands consumer b m).calls
    have hspared := leave_spares h (hall consumer List.mem_cons_self) m
    have hrenews := (hcalls.renews h.wellFormed).1
    -- the consumers still to leave joined what they did before: numbers are not given out twice
    exact hspared.trans (ih (hcalls.foreign h hspared)
      (fun other hother => (hall other (List.mem_cons_of_mem _ hother)).renews hrenews) _)

theorem cancel_spares {c : Connection} {b : Broker handle} (h : b.live.Foreign conn name r)
    (hall : ∀ consumer, c.Has consumer → b.live.topology.Entitles conn consumer) (number : Nat)
    (tag : String) (m : medium) :
    b.live.Spares (c.cancel number tag b m).2.2.1.live name := by
  unfold cancel
  cases hfound : (c.channel number).consumers[tag]? with
  | none => exact .refl _ _
  | some consumer =>
    obtain ⟨ch, hch, htag⟩ := has_of_channel hfound
    exact leave_spares h (hall consumer ⟨number, ch, tag, hch, htag⟩) m

theorem closeChannel_spares {c : Connection} {b : Broker handle}
    (h : b.live.Foreign conn name r)
    (hall : ∀ consumer, c.Has consumer → b.live.topology.Entitles conn consumer) (number : Nat)
    (m : medium) : b.live.Spares (c.closeChannel number b m).2.2.1.live name := by
  unfold closeChannel
  split
  next => exact .refl _ _
  next =>
    refine leaveAll_spares h ?_ m
    intro consumer hconsumer
    obtain ⟨tag, htag⟩ := NameMap.mem_values.1 hconsumer
    obtain ⟨ch, hch, htag⟩ := has_of_channel htag
    exact hall consumer ⟨number, ch, tag, hch, htag⟩

theorem closeChannels_spares {c : Connection} {b : Broker handle}
    (h : b.live.Foreign conn name r)
    (hall : ∀ consumer, c.Has consumer → b.live.topology.Entitles conn consumer)
    (numbers : List Nat) (m : medium) :
    b.live.Spares (closeChannels c b m numbers).2.1.live name := by
  induction numbers generalizing c b m with
  | nil => exact .refl _ _
  | cons number numbers ih =>
    have hcalls := (c.closeChannel_errands number b m).calls
    have hspared := closeChannel_spares h hall number m
    have hrenews := (hcalls.renews h.wellFormed).1
    rw [closeChannels_cons]
    refine hspared.trans (ih (hcalls.foreign h hspared) ?_ _)
    intro consumer hhas
    exact (hall consumer (has_eraseChannel hhas)).renews hrenews

/-- The queues of a connection are none that it may not use. -/
theorem deleteQueues_spares {b : Broker handle} (h : b.live.Foreign conn name r)
    (queues : List String) (m : medium) :
    b.live.Spares (deleteQueues conn b m queues).2.1.live name := by
  induction queues generalizing b m with
  | nil => exact .refl _ _
  | cons queue queues ih =>
    have hdelete : b.live.Spares
        (b.perform (LiveState.deleteQueue conn queue false false) m).2.1.live name := by
      refine perform_spares ?_ m
      intro change hchange
      -- the deletion looks the queue up on behalf of the connection that closes
      obtain ⟨q, hq, -⟩ := ok_of_bind hchange
      have hne := h.ne_of_queueFor hq
      have heffect := LiveState.deleteQueue_effect b.settings.matcher h.wellFormed hchange
      exact heffect.spares h (by simpa [Operation.queue?] using hne) (by simp) (by simp) (by simp)
    have hcalls := Relation.ReflTransGen.single (Move.release conn queue b m).call
    unfold deleteQueues
    simp only
    split
    next => exact hdelete
    next => exact hdelete.trans (ih (Calls.foreign hcalls h hdelete) _)

theorem release_spares {b : Broker handle} (h : b.live.Foreign conn name r) (m : medium) :
    b.live.Spares (release conn b m).2.1.live name := by
  unfold release
  split
  next => exact .refl _ _
  next => exact deleteQueues_spares h _ m

/-- A connection that closes spares the queues of others. -/
theorem close_spares {c : Connection} {b : Broker handle} (h : b.live.Foreign c.id name r)
    (hall : ∀ consumer, c.Has consumer → b.live.topology.Entitles c.id consumer) (m : medium) :
    b.live.Spares (c.close b m).2.1.live name := by
  have hchannels := closeChannels_spares h hall c.channels.keys m
  have hcalls := (closeChannels_errands c b m c.channels.keys).calls
  rw [close_eq]
  exact hchannels.trans (release_spares (hcalls.foreign h hchannels) _)

end Connection

/-! ## §5. Requests -/

namespace Server

open Broker

/-- What a request leaves of a queue: all of it, but for the bindings to an exchange that the
request has deleted, and for a message that it has published. -/
structure Isolated (s : Server handle) (q : Request) (name : String)
    (outcome : Outcome (Server handle × medium) Refusal Reply) : Prop where
  queue : outcome.2.1.broker.live.topology.registry.queue? name =
    s.broker.live.topology.registry.queue? name
  consumers : outcome.2.1.broker.live.topology.references.consumersOf name =
    s.broker.live.topology.references.consumersOf name
  bindings : ∀ b, b.queue = name →
    (b ∈ outcome.2.1.broker.live.topology.bindings ↔ b ∈ s.broker.live.topology.bindings ∧
      ¬ ∃ conn channel ifUnused,
        q = .onChannel conn channel (.deleteExchange b.exchange ifUnused) ∧
          outcome.1 = .ok .done)
  pending : outcome.2.1.broker.live.mailboxes.pending name =
      s.broker.live.mailboxes.pending name ∨
    ∃ conn channel message, q = .onChannel conn channel (.publish message) ∧
      outcome.2.1.broker.live.mailboxes.pending name =
        s.broker.live.mailboxes.pending name ++ [message]

omit [Medium medium handle] in
theorem isolated_of_spares {s : Server handle} {q : Request}
    {outcome : Outcome (Server handle × medium) Refusal Reply}
    (hspared : s.broker.live.Spares outcome.2.1.broker.live name)
    (hquiet : outcome.1 ≠ .ok .done ∨
      ∀ conn channel x ifUnused, q ≠ .onChannel conn channel (.deleteExchange x ifUnused)) :
    s.Isolated q name outcome := by
  refine ⟨hspared.queue, hspared.consumers, ?_, Or.inl hspared.pending⟩
  intro b hb
  rw [hspared.bindings b hb, iff_self_and]
  rintro - ⟨conn, channel, ifUnused, hq, hdone⟩
  rcases hquiet with hfailed | hother
  · exact hfailed hdone
  · exact hother conn channel _ ifUnused hq

/-- One operation on a channel. -/
theorem isolated_of_operation {s : Server handle} {op : Operation}
    (hforeign : s.broker.live.Foreign conn name r) (hoffered : op.countsByHand = false)
    (c : Connection) (channel : Nat) (m : medium) :
    let after := s.broker.run conn op m
    s.Isolated (.onChannel conn channel op) name
      (after.1.map .answer, s.keep c after.2.1, after.2.2) := by
  cases op with
  | deleteExchange x ifUnused =>
    rcases deleteExchange_outcome conn name hforeign.wellFormed x ifUnused m with
      ⟨hdone, hwithout⟩ | ⟨hfailed, hspared⟩
    · refine ⟨?_, ?_, ?_, ?_⟩
      · exact (hwithout.topology.queues name).trans (if_neg (by simp))
      · exact (hwithout.topology.consumers name).trans (if_neg (by simp))
      · intro b _
        rw [hdone]
        refine (hwithout.topology.bindings b).trans (and_congr_right fun _ => ?_)
        simp only [Removal.covers, beq_eq_false_iff_ne]
        constructor
        · rintro hne ⟨_, _, _, hsame, -⟩
          injection hsame with _ _ hsame
          injection hsame with hsame
          exact hne hsame.symm
        · rintro hother rfl
          exact hother ⟨conn, channel, ifUnused, rfl, rfl⟩
      · exact Or.inl ((hwithout.pending name).trans (if_neg (by simp)))
    · refine isolated_of_spares hspared (Or.inl ?_)
      intro hdone
      obtain ⟨a, ha, -⟩ := ok_of_map hdone
      exact hfailed a ha
  | publish message =>
    rcases publish_outcome conn s.broker message m with hsame | ⟨queues, hdelivered⟩
    · exact isolated_of_spares (hsame ▸ .refl _ _) (Or.inr (by simp))
    · refine ⟨congrArg (·.topology.registry.queue? name) hdelivered,
        congrArg (·.topology.references.consumersOf name) hdelivered, ?_, ?_⟩
      · intro b _
        show b ∈ (s.broker.run conn (.publish message) m).2.1.live.topology.bindings ↔ _
        rw [hdelivered, iff_self_and]
        rintro - ⟨_, _, _, hsame, -⟩
        injection hsame with _ _ hsame
        cases hsame
      · show (s.broker.run conn (.publish message) m).2.1.live.mailboxes.pending name = _ ∨
          ∃ conn' channel' message', _ ∧
            (s.broker.run conn (.publish message) m).2.1.live.mailboxes.pending name = _
        rw [hdelivered, Mailboxes.pending_deliver]
        split
        next => exact Or.inr ⟨conn, channel, message, rfl, rfl⟩
        next => exact Or.inl rfl
  | attachConsumer | detachConsumer => cases hoffered
  -- whatever else changes anything of a queue names that queue
  | _ =>
    exact isolated_of_spares (run_spares hforeign (by simp) (by simp) (by simp) m)
      (Or.inr (by simp))

theorem Orderly.isolated {s : Server handle} (h : s.Orderly) {q : Request}
    (hforeign : s.broker.live.Foreign conn name r) (hconn : q.connection? = some conn)
    (hoffered : q.countsByHand = false) (m : medium) : s.Isolated q name (s.serve m q) := by
  have habsent : ∀ q, s.Isolated q name (.ok .absent, s, m) := fun q =>
    isolated_of_spares (.refl _ _) (Or.inl (by simp [Reply.done]))
  have hentitled : ∀ c, s.connection? conn = some c → ∀ consumer, c.Has consumer →
      s.broker.live.topology.Entitles conn consumer := by
    intro c hc consumer hhas
    rw [← h.connection? hc]
    exact h.entitled conn.number c consumer hc hhas
  cases q with
  | operation | compact | shutdown | connect => cases hconn
  | openChannel =>
    obtain rfl := Option.some.inj hconn
    unfold Server.serve
    exact onConnection_outcome (habsent _) fun c _ =>
      isolated_of_spares (.refl _ _) (Or.inr (by simp))
  | closeConnection =>
    obtain rfl := Option.some.inj hconn
    unfold Server.serve
    refine onConnection_outcome (habsent _) fun c hc => ?_
    have hforeign : s.broker.live.Foreign c.id name r := by rwa [h.connection? hc]
    refine isolated_of_spares (Connection.close_spares hforeign ?_ m) (Or.inr (by simp))
    rw [h.connection? hc]
    exact hentitled c hc
  | consume _ channel queue =>
    obtain rfl := Option.some.inj hconn
    unfold Server.serve
    refine onChannel_outcome (habsent _) fun c hc _ => ?_
    have hforeign : s.broker.live.Foreign c.id name r := by rwa [h.connection? hc]
    exact isolated_of_spares (Connection.consume_spares hforeign channel queue m)
      (Or.inr (by simp))
  | cancel _ channel tag =>
    obtain rfl := Option.some.inj hconn
    unfold Server.serve
    refine onChannel_outcome (habsent _) fun c hc _ => ?_
    exact isolated_of_spares (Connection.cancel_spares hforeign (hentitled c hc) channel tag m)
      (Or.inr (by simp))
  | closeChannel _ channel =>
    obtain rfl := Option.some.inj hconn
    unfold Server.serve
    refine onChannel_outcome (habsent _) fun c hc _ => ?_
    exact isolated_of_spares (Connection.closeChannel_spares hforeign (hentitled c hc) channel m)
      (Or.inr (by simp))
  | onChannel _ channel op =>
    obtain rfl := Option.some.inj hconn
    unfold Server.serve
    exact onChannel_outcome (habsent _) fun c _ _ =>
      isolated_of_operation hforeign hoffered c channel m

/-- In every run, whatever another connection asks for on itself or on one of its channels: an
exclusive queue keeps its record and its consumers; it keeps its bindings, but for those to an
exchange that was asked to be deleted and is; and it keeps its messages, behind which at most one
is put that was asked to be published. -/
theorem exclusive_queue_isolated (settings : BrokerSettings) (nonce : UInt64)
    (shared : Option Mailboxes) (first : medium) (events : List (Host.Event medium))
    {number : Nat} {s : Server handle}
    (hs : ((Host.fresh settings nonce shared first).afterAll events).server? number = some s)
    {name : String} {r : Queue} {owner : ConnectionId}
    (hr : s.broker.live.topology.registry.queue? name = some r) (howner : r.owner = some owner)
    {q : Request} {conn : ConnectionId} (hconn : q.connection? = some conn) (hne : conn ≠ owner)
    (hoffered : q.countsByHand = false) (m : medium) :
    (s.serve m q).2.1.broker.live.topology.registry.queue? name = some r ∧
      s.Isolated q name (s.serve m q) := by
  have h : s.Orderly := Host.lasting_server? lasting_orderly hs
  have hisolated : s.Isolated q name (s.serve m q) := by
    cases hc : s.connection? conn with
    | none =>
      rw [serve_of_no_connection hconn hc]
      exact isolated_of_spares (.refl _ _) (Or.inl (by simp [Reply.done]))
    | some c =>
      -- connections are numbered from one, and the administrative context is zero
      have hadmin : conn ≠ .admin := by
        rintro rfl
        exact Nat.lt_irrefl 0 (h.filed _ c hc).2.1
      exact h.isolated (LiveState.foreign_of_owner h.wellFormed hr howner hne hadmin) hconn
        hoffered m
  exact ⟨hisolated.queue.trans hr, hisolated⟩

/-- A connection closes that has a consumer on an earlier queue of the name. -/
theorem exclusive_queue_isolated_of_earlier_consumer :
    ∃ s r, ((Host.fresh {} 1 none ({} : MemoryLog)).afterAll
        [.start, .ask 0 .connect, .ask 0 .connect, .ask 0 (.openChannel ⟨1⟩),
          .ask 0 (.openChannel ⟨2⟩),
          .ask 0 (.onChannel ⟨2⟩ 1 (.declareQueue ⟨"q", true, false, true⟩ false)),
          .ask 0 (.consume ⟨2⟩ 1 "q"), .ask 0 (.onChannel ⟨2⟩ 1 (.deleteQueue "q" false false)),
          .ask 0 (.onChannel ⟨1⟩ 1 (.declareQueue ⟨"q", false, true, true⟩ false)),
          .ask 0 (.consume ⟨1⟩ 1 "q"),
          .ask 0 (.onChannel ⟨1⟩ 1 (.bind ⟨"q", "amq.fanout", ""⟩)),
          .ask 0 (.onChannel ⟨2⟩ 1 (.publish ⟨"", "q", ⟨#[1]⟩⟩))]).server? 0 = some s ∧
      s.broker.live.topology.registry.queue? "q" = some r ∧ r.owner = some ⟨1⟩ ∧
      s.tags ⟨2⟩ 1 = ["ctag-2.1-1"] ∧
      s.Isolated (.closeConnection ⟨2⟩) "q" (s.serve ({} : MemoryLog) (.closeConnection ⟨2⟩)) := by
  refine ⟨_, _, (Option.some_get ?_).symm, (Option.some_get ?_).symm, ?_, ?_,
    (exclusive_queue_isolated _ _ _ _ _ (Option.some_get ?_).symm (Option.some_get ?_).symm
      (show _ = some (⟨1⟩ : ConnectionId) from ?_) rfl ?_ rfl _).2⟩
  all_goals decide +kernel

end Server

end

end BrokerTopology
