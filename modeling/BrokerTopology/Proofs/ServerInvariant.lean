/-
  BrokerTopology.Proofs.ServerInvariant — what holds of every server:
  numbers are not used twice, and a consumer is on a queue that its
  connection may use.

  A queue is told from an earlier one of its name by its incarnation, and
  a tag from an earlier one by the number in it.  Both are drawn from
  counters that never go back; `Topology.Renews` says so of a topology
  and a later one, and a run of calls is such a pair.

  A consumer keeps the incarnation that it joined under.  As long as that
  queue is there, the connection of the consumer may use it, since it
  could when the consumer joined; and a queue that is declared later has
  another incarnation.

  Main statements:
    * `Broker.Calls.renews` — incarnations along a run of calls.
    * `Server.lasting_orderly` — the invariant, in every run.
-/
import BrokerTopology.Proofs.HostRuns
import Std.Data.String.ToNat

namespace BrokerTopology

namespace Topology

/-! ## §1. Incarnations -/

/-- Of two topologies, the second one later: a queue that is there was there before, with the
same record, or has a number given out since. -/
structure Renews (t t' : Topology) : Prop where
  last_le : t.registry.lastIncarnation ≤ t'.registry.lastIncarnation
  queue : ∀ name q, t'.registry.queue? name = some q → t.registry.queue? name = some q ∨
    t.registry.lastIncarnation < q.incarnation ∧ q.incarnation ≤ t'.registry.lastIncarnation

theorem Renews.refl (t : Topology) : t.Renews t := ⟨Nat.le_refl _, fun _ _ => Or.inl⟩

theorem Renews.trans {t t' t'' : Topology} (h : t.Renews t') (h' : t'.Renews t'') :
    t.Renews t'' := by
  have hlast := h.last_le
  have hlast' := h'.last_le
  refine ⟨by omega, ?_⟩
  intro name q hq
  rcases h'.queue name q hq with hq | hnew
  · rcases h.queue name q hq with hq | hnew
    · exact Or.inl hq
    · exact Or.inr (by omega)
  · exact Or.inr (by omega)

/-- A topology with the same queues. -/
theorem renews_of_queues {t t' : Topology} (hqueues : t'.registry.queues = t.registry.queues)
    (hlast : t'.registry.lastIncarnation = t.registry.lastIncarnation) : t.Renews t' := by
  refine ⟨by omega, ?_⟩
  intro name q hq
  rw [Registry.queue?, hqueues] at hq
  exact Or.inl hq

theorem renews_addQueue (t : Topology) (d : QueueDef) (owner : Option ConnectionId) :
    t.Renews (t.addQueue d owner) := by
  refine ⟨Nat.le_succ _, ?_⟩
  intro name q hq
  rw [queue?_addQueue] at hq
  split at hq
  next =>
    injection hq with hq
    subst hq
    exact Or.inr ⟨Nat.lt_succ_self _, Nat.le_refl _⟩
  next => exact Or.inl hq

theorem renews_addBinding (t : Topology) (b : Binding) : t.Renews (t.addBinding b) := by
  obtain ⟨hregistry, -⟩ := addBinding_rest t b
  exact renews_of_queues (by rw [hregistry]) (by rw [hregistry])

theorem Step.renews {t t' : Topology} {ops : List DurableOp} (h : Step t ops t') :
    t.Renews t' := by
  cases h with
  | names hg => exact renews_of_queues rfl rfl
  | attach hq => exact renews_of_queues rfl rfl
  | detach hr => exact renews_of_queues rfl rfl
  | exchange hnew => exact renews_of_queues rfl rfl
  | queue hnew => exact renews_addQueue _ _ _
  | binding hq hx hb => exact renews_addBinding _ _
  | removal hr =>
    refine ⟨Nat.le_of_eq counters_remove.2.symm, ?_⟩
    intro name q hq
    rw [queue?_remove] at hq
    split at hq
    next => cases hq
    next => exact Or.inl hq

theorem Steps.renews {t t' : Topology} {ops : List DurableOp} (h : Steps t ops t') :
    t.Renews t' := by
  induction h with
  | refl t => exact .refl t
  | cons hstep _ ih => exact hstep.renews.trans ih

/-- No queue has a number that was not given out yet. -/
def Numbered (t : Topology) : Prop :=
  ∀ name q, t.registry.queue? name = some q → q.incarnation ≤ t.registry.lastIncarnation

theorem Numbered.renews {t t' : Topology} (h : t.Numbered) (hrenews : t.Renews t') :
    t'.Numbered := by
  intro name q hq
  rcases hrenews.queue name q hq with hq | hnew
  · exact Nat.le_trans (h name q hq) hrenews.last_le
  · exact hnew.2

theorem renews_foldl {α : Type} {add : Topology → α → Topology}
    (hadd : ∀ (t : Topology) a, t.Renews (add t a)) (t : Topology) (l : List α) :
    t.Renews (l.foldl add t) := by
  induction l generalizing t with
  | nil => exact .refl t
  | cons a l ih => exact (hadd t a).trans (ih (add t a))

theorem numbered_restore (nonce : UInt64) (s : DurableState) : (restore nonce s).Numbered := by
  have hinitial : (initial nonce).Numbered := by
    intro name q hq
    cases hq
  refine hinitial.renews (((renews_foldl ?_ _ _).trans (renews_foldl ?_ _ _)).trans
    (renews_foldl renews_addBinding _ _))
  · exact fun t d => renews_of_queues rfl rfl
  · exact fun t d => renews_addQueue t d none

end Topology

/-! ## §2. Calls -/

section

variable {medium handle : Type} [Medium medium handle]

namespace Broker

/-- One call gives out new numbers only, of queues and of connections. -/
theorem Call.renews {before after : Broker handle × medium}
    (h : before.1.live.topology.WellFormed) (hcall : Call before after) :
    before.1.live.topology.Renews after.1.live.topology ∧
      before.1.nextConnection ≤ after.1.nextConnection := by
  obtain ⟨ops, hsteps⟩ := hcall.steps h
  refine ⟨hsteps.renews, ?_⟩
  -- only a new connection draws a number for connections
  cases hcall with
  | @perform _ d _ b m => exact Nat.le_of_eq (perform_rest d b m).2.1.symm
  | compact b m =>
    obtain ⟨log, heq, -⟩ := b.compact_eq m
    exact Nat.le_of_eq (congrArg Broker.nextConnection heq).symm
  | shutdown b m => exact Nat.le_of_eq (congrArg Broker.nextConnection (b.shutdown_eq m)).symm
  | connect b m => exact Nat.le_succ _

theorem Calls.renews {before after : Broker handle × medium}
    (h : before.1.live.topology.WellFormed) (hcalls : Calls before after) :
    before.1.live.topology.Renews after.1.live.topology ∧
      before.1.nextConnection ≤ after.1.nextConnection := by
  refine (hcalls.preserves (fun b _ => b.live.topology.WellFormed ∧
    before.1.live.topology.Renews b.live.topology ∧
      before.1.nextConnection ≤ b.nextConnection) ?_ ⟨h, .refl _, Nat.le_refl _⟩).2
  rintro middle last ⟨hwf, hrenews, hnext⟩ hcall
  obtain ⟨hrenews', hnext'⟩ := hcall.renews hwf
  exact ⟨hcall.wellFormed hwf, hrenews.trans hrenews', Nat.le_trans hnext hnext'⟩

end Broker

end

/-! ## §3. Connections -/

namespace Connection

/-- A consumer is on a channel of a connection that is open. -/
def Has (c : Connection) (consumer : Consumer) : Prop :=
  ∃ (number : Nat) (ch : Channel) (tag : String),
    c.channels[number]? = some ch ∧ ch.consumers[tag]? = some consumer

/-- The numbers of the channels and of the tags were given out before. -/
structure Orderly (c : Connection) : Prop where
  channels : ∀ (number : Nat) ch, c.channels[number]? = some ch → number < c.nextChannel
  tags : ∀ (number : Nat) ch tag consumer, c.channels[number]? = some ch →
    ch.consumers[tag]? = some consumer →
      ∃ n < c.nextTag, tag = { c with nextTag := n }.tag number

/-- Two tags on a channel with the same number in them are the same. -/
theorem tag_injective (c : Connection) {number n n' : Nat}
    (h : { c with nextTag := n }.tag number = { c with nextTag := n' }.tag number) : n = n' :=
  Nat.repr_inj.1 ((String.append_right_inj _).1 h)

variable {c : Connection} {number : Nat}

/-- What is on a channel that is open. -/
theorem channel_of_some {ch : Channel} (h : c.channels[number]? = some ch) :
    c.channel number = ch := by
  rw [channel, h]
  rfl

theorem has_of_channel {tag : String} {consumer : Consumer}
    (h : (c.channel number).consumers[tag]? = some consumer) :
    ∃ ch, c.channels[number]? = some ch ∧ ch.consumers[tag]? = some consumer := by
  cases hch : c.channels[number]? with
  | none =>
    rw [channel, hch] at h
    simp at h
  | some ch =>
    rw [channel_of_some hch] at h
    exact ⟨ch, rfl, h⟩

/-- What a connection has after one channel is put in a place. -/
theorem has_insert {c' : Connection} {ch : Channel}
    (hchannels : c'.channels = c.channels.insert number ch) {consumer : Consumer}
    (h : c'.Has consumer) :
    (∃ tag : String, ch.consumers[tag]? = some consumer) ∨ c.Has consumer := by
  obtain ⟨other, ch', tag, hch', hconsumer⟩ := h
  rw [hchannels, ByNumber.getElem?_insert] at hch'
  split at hch'
  next =>
    injection hch' with hch'
    subst hch'
    exact Or.inl ⟨tag, hconsumer⟩
  next => exact Or.inr ⟨other, ch', tag, hch', hconsumer⟩

theorem Orderly.insert (hc : c.Orderly) {c' : Connection} {ch : Channel} (hid : c'.id = c.id)
    (hchannels : c'.channels = c.channels.insert number ch) (hnumber : number < c'.nextChannel)
    (hnext : c.nextChannel ≤ c'.nextChannel) (htag : c.nextTag ≤ c'.nextTag)
    (hch : ∀ tag consumer, ch.consumers[tag]? = some consumer →
      ∃ n < c'.nextTag, tag = { c with nextTag := n }.tag number) : c'.Orderly := by
  have htags : ∀ n k, { c' with nextTag := n }.tag k = { c with nextTag := n }.tag k := by
    intro n k
    simp [tag, hid]
  constructor
  · intro other ch' hch'
    rw [hchannels, ByNumber.getElem?_insert] at hch'
    split at hch'
    next hsame => omega
    next =>
      have hlt := hc.channels other ch' hch'
      omega
  · intro other ch' tag consumer hch' hconsumer
    simp only [htags]
    rw [hchannels, ByNumber.getElem?_insert] at hch'
    split at hch'
    next hsame =>
      injection hch' with hch'
      subst hch' hsame
      exact hch tag consumer hconsumer
    next =>
      obtain ⟨n, hn, heq⟩ := hc.tags other ch' tag consumer hch' hconsumer
      exact ⟨n, by omega, heq⟩

theorem Orderly.openChannel (hc : c.Orderly) : c.openChannel.2.Orderly := by
  refine hc.insert rfl rfl (Nat.lt_succ_self _)
    (Nat.le_succ _) (Nat.le_refl _) ?_
  intro tag consumer hconsumer
  simp at hconsumer

theorem has_openChannel {consumer : Consumer} (h : c.openChannel.2.Has consumer) :
    c.Has consumer := by
  rcases has_insert rfl h with ⟨tag, hconsumer⟩ | h
  · simp at hconsumer
  · exact h

/-- A channel that is open has a number that was given out. -/
theorem Orderly.number_lt (hc : c.Orderly) (hopen : c.channels.contains number = true) :
    number < c.nextChannel := by
  rw [Std.ExtTreeMap.contains_eq_isSome_getElem?, Option.isSome_iff_exists] at hopen
  obtain ⟨ch, hch⟩ := hopen
  exact hc.channels number ch hch

theorem Orderly.addConsumer (hc : c.Orderly) (hopen : c.channels.contains number = true)
    (consumer : Consumer) : (c.addConsumer number consumer).Orderly := by
  refine hc.insert rfl rfl (hc.number_lt hopen) (Nat.le_refl _) (Nat.le_succ _) ?_
  intro tag other hother
  rw [NameMap.getElem?_insert] at hother
  split at hother
  next htag => exact ⟨c.nextTag, Nat.lt_succ_self _, htag.symm⟩
  next =>
    obtain ⟨ch, hch, hother⟩ := has_of_channel hother
    obtain ⟨n, hn, heq⟩ := hc.tags number ch tag other hch hother
    exact ⟨n, Nat.lt_succ_of_lt hn, heq⟩

theorem has_addConsumer {consumer other : Consumer}
    (h : (c.addConsumer number consumer).Has other) : other = consumer ∨ c.Has other := by
  rcases has_insert rfl h with ⟨tag, hother⟩ | h
  · rw [NameMap.getElem?_insert] at hother
    split at hother
    next =>
      injection hother with hother
      exact Or.inl hother.symm
    next =>
      obtain ⟨ch, hch, hother⟩ := has_of_channel hother
      exact Or.inr ⟨number, ch, tag, hch, hother⟩
  · exact Or.inr h

/-- What is left on a channel was on it. -/
theorem found_of_erase {tag other : String} {consumer : Consumer}
    (h : ((c.channel number).consumers.erase tag)[other]? = some consumer) :
    ∃ ch, c.channels[number]? = some ch ∧ ch.consumers[other]? = some consumer := by
  rw [NameMap.getElem?_erase] at h
  split at h
  next => cases h
  next => exact has_of_channel h

theorem Orderly.eraseConsumer (hc : c.Orderly) (hopen : c.channels.contains number = true)
    (tag : String) : (c.eraseConsumer number tag).Orderly := by
  refine hc.insert rfl rfl (hc.number_lt hopen) (Nat.le_refl _) (Nat.le_refl _) ?_
  intro other consumer hconsumer
  obtain ⟨ch, hch, hconsumer⟩ := found_of_erase hconsumer
  exact hc.tags number ch other consumer hch hconsumer

theorem has_eraseConsumer {tag : String} {consumer : Consumer}
    (h : (c.eraseConsumer number tag).Has consumer) : c.Has consumer := by
  rcases has_insert rfl h with ⟨other, hconsumer⟩ | h
  · obtain ⟨ch, hch, hconsumer⟩ := found_of_erase hconsumer
    exact ⟨number, ch, other, hch, hconsumer⟩
  · exact h

theorem channels_eraseChannel {other : Nat} {ch : Channel}
    (h : (c.eraseChannel number).channels[other]? = some ch) : c.channels[other]? = some ch := by
  rw [eraseChannel, Std.ExtTreeMap.getElem?_erase] at h
  split at h
  next => cases h
  next => exact h

theorem Orderly.eraseChannel (hc : c.Orderly) (number : Nat) : (c.eraseChannel number).Orderly where
  channels other ch hch := hc.channels other ch (channels_eraseChannel hch)
  tags other ch tag consumer hch hconsumer :=
    hc.tags other ch tag consumer (channels_eraseChannel hch) hconsumer

theorem has_eraseChannel {consumer : Consumer} (h : (c.eraseChannel number).Has consumer) :
    c.Has consumer := by
  obtain ⟨other, ch, tag, hch, hconsumer⟩ := h
  exact ⟨other, ch, tag, channels_eraseChannel hch, hconsumer⟩

end Connection

/-! ## §4. Servers -/

/-- A consumer whose queue, as long as that is there, is open to a connection. -/
structure Topology.Entitles (t : Topology) (conn : ConnectionId) (consumer : Consumer) : Prop where
  incarnation_le : consumer.incarnation ≤ t.registry.lastIncarnation
  accessible : ∀ q, t.registry.queue? consumer.queue = some q →
    q.incarnation = consumer.incarnation → q.accessibleBy conn = true

/-- A later queue of the name is not the queue of the consumer. -/
theorem Topology.Entitles.renews {t t' : Topology} {conn : ConnectionId} {consumer : Consumer}
    (h : t.Entitles conn consumer) (hrenews : t.Renews t') : t'.Entitles conn consumer := by
  refine ⟨Nat.le_trans h.incarnation_le hrenews.last_le, ?_⟩
  intro q hq hsame
  rcases hrenews.queue _ q hq with hq | hnew
  · exact h.accessible q hq hsame
  · have hle := h.incarnation_le
    omega

namespace Server

variable {medium handle : Type}

/-- How the connections of a server and its broker hang together. -/
structure Orderly (s : Server handle) : Prop where
  wellFormed : s.broker.live.topology.WellFormed
  numbered : s.broker.live.topology.Numbered
  nextConnection_pos : 0 < s.broker.nextConnection
  /-- Connections are kept by their numbers, and the administrative context is none of them. -/
  filed : ∀ (number : Nat) c, s.connections[number]? = some c →
    c.id = ⟨number⟩ ∧ 0 < number ∧ number < s.broker.nextConnection
  connections : ∀ (number : Nat) c, s.connections[number]? = some c → c.Orderly
  entitled : ∀ (number : Nat) c consumer, s.connections[number]? = some c → c.Has consumer →
    s.broker.live.topology.Entitles c.id consumer

namespace Orderly

variable {s : Server handle}

theorem connection? (h : s.Orderly) {conn : ConnectionId} {c : Connection}
    (hc : s.connection? conn = some c) : c.id = conn := (h.filed conn.number c hc).1

/-- The same connections, after the broker was called. -/
theorem moved [Medium medium handle] (h : s.Orderly) {m : medium}
    {after : Broker handle × medium} (hcalls : Broker.Calls (s.broker, m) after) :
    { s with broker := after.1 }.Orderly := by
  obtain ⟨hrenews, hnext⟩ := hcalls.renews h.wellFormed
  refine ⟨?_, h.numbered.renews hrenews, Nat.lt_of_lt_of_le h.nextConnection_pos hnext, ?_,
    h.connections, ?_⟩
  · exact hcalls.wellFormed h.wellFormed
  · intro number c hc
    obtain ⟨hid, hpos, hlt⟩ := h.filed number c hc
    exact ⟨hid, hpos, Nat.lt_of_lt_of_le hlt hnext⟩
  · intro number c consumer hc hhas
    exact (h.entitled number c consumer hc hhas).renews hrenews

/-- One connection put in its place. -/
theorem keep (h : s.Orderly) {c : Connection} (hpos : 0 < c.id.number)
    (hlt : c.id.number < s.broker.nextConnection) (hc : c.Orderly)
    (hentitled : ∀ consumer, c.Has consumer → s.broker.live.topology.Entitles c.id consumer) :
    (s.keep c s.broker).Orderly := by
  have hlook := ByNumber.getElem?_insert s.connections c.id.number
  refine ⟨h.wellFormed, h.numbered, h.nextConnection_pos, ?_, ?_, ?_⟩
  · intro number c' hc'
    rw [Server.keep, hlook] at hc'
    split at hc'
    next hsame =>
      injection hc' with hc'
      subst hc' hsame
      exact ⟨rfl, hpos, hlt⟩
    next => exact h.filed number c' hc'
  · intro number c' hc'
    rw [Server.keep, hlook] at hc'
    split at hc'
    next =>
      injection hc' with hc'
      exact hc' ▸ hc
    next => exact h.connections number c' hc'
  · intro number c' consumer hc' hhas
    rw [Server.keep, hlook] at hc'
    split at hc'
    next =>
      injection hc' with hc'
      subst hc'
      exact hentitled consumer hhas
    next => exact h.entitled number c' consumer hc' hhas

/-- A connection that was open, changed in such a way that it has no more consumers. -/
theorem keep_less (h : s.Orderly) {conn : ConnectionId} {c c' : Connection}
    (hc : s.connection? conn = some c) (hid : c'.id = c.id) (horderly : c'.Orderly)
    (hless : ∀ consumer, c'.Has consumer → c.Has consumer) : (s.keep c' s.broker).Orderly := by
  obtain ⟨hconn, hpos, hlt⟩ := h.filed conn.number c hc
  have hnumber : c'.id.number = conn.number := by rw [hid, hconn]
  refine h.keep (by omega) (by omega) horderly ?_
  intro consumer hhas
  rw [hid]
  exact h.entitled conn.number c consumer hc (hless consumer hhas)

theorem erase (h : s.Orderly) (number : Nat) :
    { s with connections := s.connections.erase number }.Orderly := by
  have hleft : ∀ (other : Nat) c, (s.connections.erase number)[other]? = some c →
      s.connections[other]? = some c := by
    intro other c hc
    rw [Std.ExtTreeMap.getElem?_erase] at hc
    split at hc
    next => cases hc
    next => exact hc
  exact ⟨h.wellFormed, h.numbered, h.nextConnection_pos,
    fun other c hc => h.filed other c (hleft other c hc),
    fun other c hc => h.connections other c (hleft other c hc),
    fun other c consumer hc => h.entitled other c consumer (hleft other c hc)⟩

end Orderly

variable [Medium medium handle]

/-! ## §5. Requests -/

omit [Medium medium handle] in
/-- On a connection that is open something is done; on any other, nothing. -/
theorem onConnection_outcome {s : Server handle} {m : medium} {conn : ConnectionId}
    {f : Connection → Outcome (Server handle × medium) Refusal Reply}
    {P : Outcome (Server handle × medium) Refusal Reply → Prop} (hsame : P (.ok .absent, s, m))
    (hf : ∀ c, s.connection? conn = some c → P (f c)) : P (s.onConnection conn m f) := by
  unfold onConnection
  split
  next => exact hsame
  next c hc => exact hf c hc

omit [Medium medium handle] in
theorem onChannel_outcome {s : Server handle} {m : medium} {conn : ConnectionId} {channel : Nat}
    {f : Connection → Outcome (Connection × Broker handle × medium) Refusal Reply}
    {P : Outcome (Server handle × medium) Refusal Reply → Prop} (hsame : P (.ok .absent, s, m))
    (hf : ∀ c, s.connection? conn = some c → c.channels.contains channel = true →
      P ((f c).1, s.keep (f c).2.1 (f c).2.2.1, (f c).2.2.2)) :
    P (s.onChannel conn channel m f) := by
  refine onConnection_outcome hsame ?_
  intro c hc
  split
  next hopen => exact hf c hc hopen
  next => exact hsame

/-- A consumer that joins may use its queue: it was looked up on behalf of its connection. -/
theorem entitles_of_attach {conn : ConnectionId} {queue : String} {s : LiveState}
    {change : Change (Nat × Nat)} (hnumbered : s.topology.Numbered)
    (hd : LiveState.attachConsumer conn queue s = .ok change) :
    change.live.topology.Entitles conn ⟨queue, change.answer.2⟩ := by
  obtain ⟨q, hq, hd⟩ := ok_of_bind hd
  injection hd with hd
  subst hd
  have hfound := LiveState.queueFor_ok hq
  refine ⟨hnumbered queue q hfound, ?_⟩
  intro q' hq' _
  obtain rfl : q' = q := Option.some.inj (hq'.symm.trans hfound)
  exact LiveState.accessibleBy_of_queueFor hq

theorem Orderly.consume {s : Server handle} (h : s.Orderly) {conn : ConnectionId} {c : Connection}
    (hc : s.connection? conn = some c) {channel : Nat}
    (hopen : c.channels.contains channel = true) (queue : String) (m : medium) :
    (s.keep (c.consume channel queue s.broker m).2.1
      (c.consume channel queue s.broker m).2.2.1).Orderly := by
  have hmoved := h.moved (c.consume_errands channel queue s.broker m).calls
  have horderly := h.connections conn.number c hc
  obtain ⟨hid, hpos, hlt⟩ := hmoved.filed conn.number c hc
  rcases c.consume_cases channel queue s.broker m with ⟨e, -, heq⟩ | ⟨a, hjoined, heq⟩
  · rw [heq] at hmoved ⊢
    exact hmoved.keep_less hc rfl horderly fun _ => id
  · rw [heq] at hmoved hlt ⊢
    obtain ⟨change, hchange, rfl, hlive⟩ := Broker.ok_of_perform hjoined
    have hnew := entitles_of_attach h.numbered hchange
    rw [← hlive] at hnew
    have hnumber : c.id.number = conn.number := by rw [hid]
    refine hmoved.keep (hnumber ▸ hpos) (hnumber ▸ hlt) (horderly.addConsumer hopen _) ?_
    intro consumer hhas
    rcases Connection.has_addConsumer hhas with rfl | hhas
    · exact hnew
    · exact hmoved.entitled conn.number c consumer hc hhas

theorem Orderly.cancel {s : Server handle} (h : s.Orderly) {conn : ConnectionId} {c : Connection}
    (hc : s.connection? conn = some c) {channel : Nat}
    (hopen : c.channels.contains channel = true) (tag : String) (m : medium) :
    (s.keep (c.cancel channel tag s.broker m).2.1
      (c.cancel channel tag s.broker m).2.2.1).Orderly := by
  have hmoved := h.moved (c.cancel_errands channel tag s.broker m).calls
  have horderly := h.connections conn.number c hc
  unfold Connection.cancel at hmoved ⊢
  cases hfound : (c.channel channel).consumers[tag]? with
  | none => exact h.keep_less hc rfl horderly fun _ => id
  | some consumer =>
    rw [hfound] at hmoved
    exact hmoved.keep_less hc rfl (horderly.eraseConsumer hopen tag)
      fun _ => Connection.has_eraseConsumer

theorem Orderly.closeChannel {s : Server handle} (h : s.Orderly) {conn : ConnectionId}
    {c : Connection} (hc : s.connection? conn = some c) (channel : Nat) (m : medium) :
    (s.keep (c.closeChannel channel s.broker m).2.1
      (c.closeChannel channel s.broker m).2.2.1).Orderly := by
  have hmoved := h.moved (c.closeChannel_errands channel s.broker m).calls
  rw [Connection.closeChannel_connection]
  exact hmoved.keep_less hc rfl ((h.connections conn.number c hc).eraseChannel channel)
    fun _ => Connection.has_eraseChannel

theorem Orderly.serve {s : Server handle} (h : s.Orderly) (m : medium) (q : Request) :
    (s.serve m q).2.1.Orderly := by
  have hcalls := s.serve_calls m q
  cases q with
  | operation | compact | shutdown => exact h.moved hcalls
  | connect =>
    refine (h.moved hcalls).keep h.nextConnection_pos (Nat.lt_succ_self _) ?_ ?_
    · constructor
      · intro number ch hch
        simp at hch
      · intro number ch tag consumer hch
        simp at hch
    · rintro consumer ⟨number, ch, tag, hch, -⟩
      simp at hch
  | openChannel conn =>
    refine onConnection_outcome (P := fun o => o.2.1.Orderly) h fun c hc => ?_
    exact h.keep_less hc rfl (h.connections conn.number c hc).openChannel
      fun _ => Connection.has_openChannel
  | closeConnection conn =>
    refine onConnection_outcome (P := fun o => o.2.1.Orderly) h fun c hc => ?_
    exact (h.moved (c.close_errands s.broker m).calls).erase conn.number
  | onChannel conn channel op =>
    refine onChannel_outcome (P := fun o => o.2.1.Orderly) h fun c hc _ => ?_
    exact (h.moved (Relation.ReflTransGen.single
      (Broker.Move.operation conn op s.broker m).call)).keep_less hc rfl
      (h.connections conn.number c hc) fun _ => id
  | consume conn channel queue =>
    exact onChannel_outcome (P := fun o => o.2.1.Orderly) h
      fun c hc hopen => h.consume hc hopen queue m
  | cancel conn channel tag =>
    exact onChannel_outcome (P := fun o => o.2.1.Orderly) h
      fun c hc hopen => h.cancel hc hopen tag m
  | closeChannel conn channel =>
    exact onChannel_outcome (P := fun o => o.2.1.Orderly) h
      fun c hc _ => h.closeChannel hc channel m

/-- Every server is orderly, in every run. -/
theorem lasting_orderly : Lasting medium (Orderly : Server handle → Prop) where
  opened {settings nonce mailboxes m b} hopen := by
    have hwf := Broker.openOn_wellFormed hopen
    obtain ⟨log, entries, -, rfl⟩ := Broker.openOn_log hopen
    refine ⟨hwf, Topology.numbered_restore nonce _, Nat.one_pos, ?_, ?_, ?_⟩
    · intro number c hc
      simp at hc
    · intro number c hc
      simp at hc
    · intro number c consumer hc
      simp at hc
  served h m q := h.serve m q
  mailed h _ := ⟨h.wellFormed, h.numbered, h.nextConnection_pos, h.filed, h.connections, h.entitled⟩

end Server

end BrokerTopology
