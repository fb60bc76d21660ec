/-
  BrokerTopology.Proofs.FailedCancels — a consumer that could not be
  cancelled cannot be cancelled any more.

  Only one thing keeps a consumer from leaving: it is the last one of an
  auto-delete queue, and the log does not take the deletion.  Then the
  broker is as it was, and counts the consumer as before.  But its tag
  was taken off the channel already.  Tags are not given out twice, so it
  never comes back: whatever happens, a later cancel of the tag finds
  nothing, also when the log takes everything again.

  A tag that is spent is followed through every run: `Connection.Spent`
  on its connection, `Server.Forgets` on a server, and by `Host.follow`
  on a host.

  Main statements:
    * `Connection.leave_failed` — what keeps a consumer from leaving.
    * `Server.Forgets.serve` — no request brings a spent tag back.
    * `Host.failed_cancel_loses_tag` — a cancel that fails, in every run.
-/
import BrokerTopology.Proofs.ConsumerCounts
import BrokerTopology.Proofs.RetiredBrokers

namespace BrokerTopology

/-! ## §1. Why a consumer does not leave -/

namespace LiveState

/-- A consumer that leaves has something recorded only if a queue goes with it. -/
theorem last_of_detachConsumer {s : LiveState} {name : String} {incarnation : Nat}
    {change : Change Nat} (hd : detachConsumer name (some incarnation) s = .ok change)
    (hops : change.ops ≠ []) :
    ∃ q, s.topology.registry.queue? name = some q ∧ q.incarnation = incarnation ∧
      q.definition.autoDelete = true ∧ s.topology.references.consumersOf name = 1 := by
  unfold detachConsumer at hd
  split at hd
  next => cases hd
  next q hq =>
    split at hd
    next => cases hd
    next hsame =>
      split at hd
      next =>
        injection hd with hd
        exact absurd (by rw [← hd]; rfl) hops
      next remaining hcount =>
        injection hd with hd
        by_cases hlast : (remaining = 0 && q.definition.autoDelete) = true
        · obtain ⟨hzero, hauto⟩ := Bool.and_eq_true_iff.1 hlast
          obtain rfl : remaining = 0 := of_decide_eq_true hzero
          have hsame : incarnation = q.incarnation := by simpa using hsame
          exact ⟨q, hq, hsame.symm, hauto, hcount⟩
        · rw [if_neg hlast] at hd
          exact absurd (by rw [← hd]) hops

/-- To have a consumer leave draws no name. -/
theorem withNames_detachConsumer {s : LiveState} (h : s.topology.WellFormed) {name : String}
    {incarnation : Option Nat} {change : Change Nat}
    (hd : detachConsumer name incarnation s = .ok change) : s.withNames change.live = s := by
  refine withNames_eq_self ?_
  have heffect := (detachConsumer_effect .byKey .admin h hd).2
  generalize change.live = s' at heffect ⊢
  cases heffect with
  | same => rfl
  | removed _ hs' => exact hs'.topology.names
  | nobodyLeft => rfl
  | left => rfl

end LiveState

section

variable {medium handle : Type} [Medium medium handle]

/-- A consumer is kept from leaving by the log alone, as the last one of a queue that would go
with it; and the broker keeps everything in memory. -/
theorem Connection.leave_failed {consumer : Consumer} {b : Broker handle} {m : medium}
    (h : b.live.topology.WellFormed) (hopen : b.isClosed = false) {e : Refusal}
    (hfailed : (leave consumer b m).1 = .error e) :
    (∃ cause, e = .journal cause) ∧ (leave consumer b m).2.1.live = b.live ∧
      ∃ q, b.live.topology.registry.queue? consumer.queue = some q ∧
        q.incarnation = consumer.incarnation ∧ q.definition.autoDelete = true ∧
        b.live.topology.references.consumersOf consumer.queue = 1 := by
  let detach := LiveState.detachConsumer consumer.queue (some consumer.incarnation)
  have hperformed := Broker.performed detach b m
  replace hfailed : excuseNotFound () ((b.perform detach m).1.map fun _ => ()) = .error e := hfailed
  show _ ∧ (b.perform detach m).2.1.live = b.live ∧ _
  generalize b.perform detach m = outcome at hperformed hfailed ⊢
  cases hperformed with
  | closed hlog =>
    rw [Broker.isClosed, hlog] at hopen
    cases hopen
  | refused hlog hd =>
    -- a queue that is gone already is no failure
    obtain ⟨rfl, -⟩ := LiveState.detachConsumer_error hd
    cases hfailed
  | @unrecorded log log' change cause m' hlog hd hrecord =>
    injection hfailed with hfailed
    refine ⟨⟨cause, hfailed.symm⟩, LiveState.withNames_detachConsumer h hd, ?_⟩
    refine LiveState.last_of_detachConsumer hd fun hops => ?_
    rw [hops, OpenLog.record_nil] at hrecord
    cases hrecord
  | recorded => cases hfailed

end

/-! ## §2. Tags that are spent -/

namespace Connection

/-- A tag of a channel that was given out and is on the channel no more. -/
structure Spent (c : Connection) (number : Nat) (tag : String) : Prop where
  given : ∃ n < c.nextTag, tag = { c with nextTag := n }.tag number
  gone : (c.channel number).consumers[tag]? = none

variable {c c' : Connection} {number : Nat} {tag : String}

/-- Of a connection that gives out its tags in order, only the channel itself matters. -/
theorem Spent.later (h : c.Spent number tag) (hid : c'.id = c.id) (htag : c.nextTag ≤ c'.nextTag)
    (hgone : (c'.channel number).consumers[tag]? = none) : c'.Spent number tag := by
  obtain ⟨n, hn, heq⟩ := h.given
  refine ⟨⟨n, Nat.lt_of_lt_of_le hn htag, ?_⟩, hgone⟩
  rw [heq]
  simp [Connection.tag, hid]

theorem channel_insert {k : Nat} {ch : Channel} (hchannels : c'.channels = c.channels.insert k ch)
    (number : Nat) : c'.channel number = if k = number then ch else c.channel number := by
  rw [channel, hchannels, ByNumber.getElem?_insert]
  split
  next => rfl
  next => rfl

theorem Spent.openChannel (h : c.Spent number tag) : c.openChannel.2.Spent number tag := by
  refine h.later rfl (Nat.le_refl _) ?_
  rw [channel_insert (c := c) rfl]
  split
  next => simp
  next => exact h.gone

/-- The tag that is given out next is another. -/
theorem Spent.addConsumer (h : c.Spent number tag) (k : Nat) (consumer : Consumer) :
    (c.addConsumer k consumer).Spent number tag := by
  refine h.later rfl (Nat.le_succ _) ?_
  rw [channel_insert (c := c) rfl]
  split
  next hsame =>
    subst hsame
    obtain ⟨n, hn, heq⟩ := h.given
    have hother : c.tag k ≠ tag := by
      rintro rfl
      exact Nat.ne_of_gt hn (c.tag_injective heq)
    rw [NameMap.getElem?_insert, if_neg hother]
    exact h.gone
  next => exact h.gone

theorem Spent.eraseConsumer (h : c.Spent number tag) (k : Nat) (other : String) :
    (c.eraseConsumer k other).Spent number tag := by
  refine h.later rfl (Nat.le_refl _) ?_
  rw [channel_insert (c := c) rfl]
  split
  next hsame =>
    subst hsame
    rw [NameMap.getElem?_erase, h.gone, ite_self]
  next => exact h.gone

theorem Spent.eraseChannel (h : c.Spent number tag) (k : Nat) :
    (c.eraseChannel k).Spent number tag := by
  refine h.later rfl (Nat.le_refl _) ?_
  rw [channel, Connection.eraseChannel, Std.ExtTreeMap.getElem?_erase]
  split
  next => simp
  next => exact h.gone

/-- A tag that is taken off its channel is spent. -/
theorem Orderly.spent (hc : c.Orderly) {consumer : Consumer}
    (hfound : (c.channel number).consumers[tag]? = some consumer) :
    (c.eraseConsumer number tag).Spent number tag := by
  obtain ⟨ch, hch, hconsumer⟩ := has_of_channel hfound
  refine ⟨hc.tags number ch tag consumer hch hconsumer, ?_⟩
  rw [channel_insert (c := c) rfl, if_pos rfl, NameMap.getElem?_erase, if_pos rfl]

end Connection

section

variable {medium handle : Type} [Medium medium handle]

namespace Server

open Broker Connection

/-- A server where a tag of a channel was given out and is no more. -/
structure Forgets (s : Server handle) (conn : ConnectionId) (channel : Nat) (tag : String) :
    Prop where
  /-- The connection was made before, so no later one has its number. -/
  known : conn.number < s.broker.nextConnection
  spent : ∀ c, s.connection? conn = some c → c.Spent channel tag

variable {s : Server handle} {conn : ConnectionId} {channel : Nat} {tag : String}

omit [Medium medium handle] in
/-- A connection is put in its place, where the tag is still spent if it was. -/
theorem Forgets.keep (h : s.Forgets conn channel tag) {other : ConnectionId} {c c' : Connection}
    {b : Broker handle} (hc : s.connection? other = some c) (hid : c'.id = other)
    (hnext : s.broker.nextConnection ≤ b.nextConnection)
    (hspent : c.Spent channel tag → c'.Spent channel tag) :
    (s.keep c' b).Forgets conn channel tag := by
  refine ⟨Nat.lt_of_lt_of_le h.known hnext, ?_⟩
  intro d hd
  rw [connection?, Server.keep, ByNumber.getElem?_insert, hid] at hd
  split at hd
  next hsame =>
    injection hd with hd
    subst hd
    rw [connection?, hsame] at hc
    exact hspent (h.spent c hc)
  next => exact h.spent d hd

/-- No request brings a tag back. -/
theorem Forgets.serve (h : s.Forgets conn channel tag) (horderly : s.Orderly) (m : medium)
    (q : Request) : (s.serve m q).2.1.Forgets conn channel tag := by
  -- what is to be shown of the outcome, whichever it is
  let P : Outcome (Server handle × medium) Refusal Reply → Prop :=
    fun o => o.2.1.Forgets conn channel tag
  have hnext : ∀ {b : Broker handle} {m' : medium}, Calls (s.broker, m) (b, m') →
      s.broker.nextConnection ≤ b.nextConnection :=
    fun hcalls => (hcalls.renews horderly.wellFormed).2
  have hsame : ∀ {b : Broker handle} {m' : medium}, Calls (s.broker, m) (b, m') →
      { s with broker := b }.Forgets conn channel tag :=
    fun hcalls => ⟨Nat.lt_of_lt_of_le h.known (hnext hcalls), h.spent⟩
  have hcalls := s.serve_calls m q
  cases q with
  | operation | compact | shutdown => exact hsame hcalls
  | connect =>
    refine ⟨Nat.lt_succ_of_lt h.known, ?_⟩
    intro c hc
    have hother : s.broker.nextConnection ≠ conn.number := Nat.ne_of_gt h.known
    replace hc : (s.connections.insert s.broker.nextConnection
      { id := ⟨s.broker.nextConnection⟩ })[conn.number]? = some c := hc
    rw [ByNumber.getElem?_insert, if_neg hother] at hc
    exact h.spent c hc
  | openChannel other =>
    refine onConnection_outcome (P := P) h fun c hc => ?_
    have hid : c.openChannel.2.id = c.id := rfl
    exact h.keep hc (hid.trans (horderly.connection? hc)) (Nat.le_refl _) Spent.openChannel
  | closeConnection other =>
    refine onConnection_outcome (P := P) h fun c hc => ?_
    refine ⟨Nat.lt_of_lt_of_le h.known (hnext (c.close_errands s.broker m).calls), ?_⟩
    intro d hd
    rw [connection?, Std.ExtTreeMap.getElem?_erase] at hd
    split at hd
    next => cases hd
    next => exact h.spent d hd
  | onChannel other k op =>
    refine onChannel_outcome (P := P) h fun c hc _ => ?_
    exact h.keep hc (horderly.connection? hc)
      (hnext (.single (Move.operation other op s.broker m).call)) id
  | consume other k queue =>
    refine onChannel_outcome (P := P) h fun c hc _ => ?_
    refine h.keep hc ((consume_id c k queue).trans (horderly.connection? hc))
      (hnext (c.consume_errands k queue s.broker m).calls) fun hspent => ?_
    rcases c.consume_cases k queue s.broker m with ⟨e, -, heq⟩ | ⟨a, -, heq⟩
    · rw [heq]
      exact hspent
    · rw [heq]
      exact hspent.addConsumer k _
  | cancel other k canceled =>
    refine onChannel_outcome (P := P) h fun c hc _ => ?_
    refine h.keep hc ((cancel_id c k canceled).trans (horderly.connection? hc))
      (hnext (c.cancel_errands k canceled s.broker m).calls) fun hspent => ?_
    show (c.cancel k canceled s.broker m).2.1.Spent channel tag
    unfold cancel
    split
    next => exact hspent
    next => exact hspent.eraseConsumer k canceled
  | closeChannel other k =>
    refine onChannel_outcome (P := P) h fun c hc _ => ?_
    refine h.keep hc ((closeChannel_id c k).trans (horderly.connection? hc))
      (hnext (c.closeChannel_errands k s.broker m).calls) fun hspent => ?_
    rw [closeChannel_connection]
    exact hspent.eraseChannel k

omit [Medium medium handle] in
/-- To keep a connection that was not changed is to change nothing. -/
theorem keep_self {c : Connection} (hid : c.id = conn) (hc : s.connection? conn = some c) :
    s.keep c s.broker = s := by
  have hconnections : s.connections.insert c.id.number c = s.connections := by
    refine Std.ExtTreeMap.ext_getElem? fun number => ?_
    rw [ByNumber.getElem?_insert]
    split
    next hsame =>
      rw [← hsame, hid]
      exact hc.symm
    next => rfl
  rw [Server.keep, hconnections]

/-- A cancel of a tag that is spent finds nothing, and changes nothing. -/
theorem Forgets.cancel (h : s.Forgets conn channel tag) (horderly : s.Orderly) (m : medium) :
    s.serve m (.cancel conn channel tag) =
      (if s.hasChannel conn channel then .error (.notFound (.consumer tag)) else .ok .absent,
        s, m) := by
  unfold hasChannel Server.serve onChannel onConnection
  simp only
  cases hc : s.connection? conn with
  | none => rfl
  | some c =>
    simp only [Option.any_some]
    split
    next =>
      rw [cancel_of_unknown (h.spent c hc).gone, keep_self (horderly.connection? hc) hc]
      rfl
    next => rfl

/-- What is kept by every request, on whatever medium, and whatever becomes of the messages. -/
structure Enduring (medium : Type) {handle : Type} [Medium medium handle]
    (inv : Server handle → Prop) : Prop where
  served : ∀ {s : Server handle}, inv s → ∀ (m : medium) (q : Request), inv (s.serve m q).2.1
  mailed : ∀ {s : Server handle}, inv s → ∀ mailboxes : Mailboxes,
    inv { s with broker := s.broker.withMailboxes mailboxes }

theorem enduring_forgets (conn : ConnectionId) (channel : Nat) (tag : String) :
    Enduring medium fun s : Server handle => s.Orderly ∧ s.Forgets conn channel tag where
  served h m q := ⟨h.1.serve m q, h.2.serve h.1 m q⟩
  mailed h mailboxes := by
    have hlasting : Lasting medium (Orderly : Server handle → Prop) := lasting_orderly
    exact ⟨hlasting.mailed h.1 mailboxes, h.2.known, h.2.spent⟩

end Server

/-! ## §3. One server of a host -/

namespace Host

open Server

/-- The server of a number has a property, and no later one gets the number. -/
structure Follows (h : Host medium handle) (number : Nat) (inv : Server handle → Prop) :
    Prop where
  numbered : number < h.nextServer
  kept : ∀ s, h.servers[number]? = some s → inv s

variable {h : Host medium handle} {number : Nat} {inv : Server handle → Prop}

omit [Medium medium handle] in
theorem Follows.keep (hfollows : h.Follows number inv) {other : Nat} {s : Server handle}
    (hs : other = number → inv s) (m : medium) : (h.keep other s m).Follows number inv := by
  refine ⟨hfollows.numbered, ?_⟩
  intro t ht
  rw [Host.keep, ByNumber.getElem?_insert] at ht
  split at ht
  next hsame =>
    injection ht with ht
    exact ht ▸ hs hsame
  next => exact hfollows.kept t ht

omit [Medium medium handle] in
/-- The next broker takes another place. -/
theorem Follows.succeed (hfollows : h.Follows number inv)
    (result : Except Refusal (Broker handle)) : (h.succeed result).2.Follows number inv := by
  cases result with
  | error e => exact hfollows
  | ok b =>
    refine ⟨Nat.lt_succ_of_lt hfollows.numbered, ?_⟩
    intro t ht
    have hother : h.nextServer ≠ number := Nat.ne_of_gt hfollows.numbered
    replace ht : (h.servers.insert h.nextServer { broker := b })[number]? = some t := ht
    rw [ByNumber.getElem?_insert, if_neg hother] at ht
    exact hfollows.kept t ht

theorem Follows.server? (hfollows : h.Follows number inv) (hinv : Enduring medium inv)
    {s : Server handle} (hs : h.server? number = some s) : inv s := by
  obtain ⟨kept, hkept, hconnections, mailboxes, hbroker⟩ := server?_eq_some hs
  have heq : s = { kept with broker := kept.broker.withMailboxes mailboxes } := by
    rw [← hconnections, ← hbroker]
  rw [heq]
  exact hinv.mailed (hfollows.kept kept hkept) mailboxes

/-- Whatever happens to a host, one server of it keeps what endures. -/
theorem Follows.after (hfollows : h.Follows number inv) (hinv : Enduring medium inv)
    (e : Event medium) : (h.after e).Follows number inv := by
  cases e with
  | start =>
    obtain ⟨result, m, -, heq⟩ := h.open_eq
    show h.open.2.Follows number inv
    rw [heq]
    exact Follows.succeed (h := { h.drawNonce with medium := m }) ⟨hfollows.numbered, hfollows.kept⟩
      result
  | probe =>
    show h.openBeside.2.Follows number inv
    unfold Host.openBeside
    simp only
    split
    next => exact ⟨hfollows.numbered, hfollows.kept⟩
    next => exact ⟨hfollows.numbered, hfollows.kept⟩
  | restart =>
    unfold Host.after
    simp only
    split
    next => exact hfollows
    next outcome hrestart =>
      obtain ⟨other, s, result, m, -, hs, rfl⟩ := restart_outcome hrestart
      have hshut : other = number → inv { s with broker := { s.broker with log := none } } := by
        rintro rfl
        rw [← s.broker.shutdown_eq h.medium]
        exact hinv.served (hfollows.server? hinv hs) h.medium .shutdown
      have hkept := hfollows.keep hshut m
      exact Follows.succeed (h := (h.keep other _ m).drawNonce) ⟨hkept.numbered, hkept.kept⟩ result
  | ask other q =>
    show (h.ask other q).2.Follows number inv
    unfold Host.ask
    split
    next => exact hfollows
    next s hs =>
      refine hfollows.keep ?_ _
      rintro rfl
      exact hinv.served (hfollows.server? hinv hs) h.medium q
  | disturb m => exact ⟨hfollows.numbered, hfollows.kept⟩

theorem Follows.afterAll (hfollows : h.Follows number inv) (hinv : Enduring medium inv)
    (events : List (Event medium)) : (h.afterAll events).Follows number inv := by
  induction events generalizing h with
  | nil => exact hfollows
  | cons e events ih => exact ih (hfollows.after hinv e)

end Host

/-! ## §4. A cancel that fails -/

/-- A consumer that is on a channel is taken off it, and leaves its queue or does not. -/
theorem Server.serve_cancel {s : Server handle} {conn : ConnectionId} {c : Connection}
    (hc : s.connection? conn = some c) {channel : Nat} {tag : String} {consumer : Consumer}
    (hfound : (c.channel channel).consumers[tag]? = some consumer) (m : medium) :
    s.serve m (.cancel conn channel tag) =
      ((Connection.leave consumer s.broker m).1.map fun _ => .done,
        s.keep (c.eraseConsumer channel tag) (Connection.leave consumer s.broker m).2.1,
        (Connection.leave consumer s.broker m).2.2) := by
  obtain ⟨ch, hch, -⟩ := Connection.has_of_channel hfound
  have hchannel : c.channels.contains channel = true := by
    rw [Std.ExtTreeMap.contains_eq_isSome_getElem?, hch]
    rfl
  unfold Server.serve onChannel onConnection
  simp only [hc, hchannel, ↓reduceIte, Connection.cancel, hfound]

namespace Host

open Server

/-- In every run, on whatever media: if a consumer that is on a channel of a running broker cannot
be cancelled, then the log has refused to take that its queue goes with it as the last one; all
that the broker has in memory is as before, the count of consumers too; the tag is off the channel
all the same; and from then on, whatever happens, cancelling it finds nothing, and changes
nothing. -/
theorem failed_cancel_loses_tag (settings : BrokerSettings) (nonce : UInt64)
    (shared : Option Mailboxes) (first : medium) (events : List (Event medium)) {number : Nat}
    {s : Server handle}
    (hs : ((fresh settings nonce shared first).afterAll events).server? number = some s)
    (hopen : s.broker.isClosed = false) {conn : ConnectionId} {c : Connection}
    (hc : s.connection? conn = some c) {channel : Nat} {tag : String} {consumer : Consumer}
    (hfound : (c.channel channel).consumers[tag]? = some consumer) {e : Refusal}
    {after : Host medium handle}
    (hfailed : ((fresh settings nonce shared first).afterAll events).ask number
      (.cancel conn channel tag) = (.error e, after)) :
    ((∃ cause, e = .journal cause) ∧
      ∃ q, s.broker.live.topology.registry.queue? consumer.queue = some q ∧
        q.incarnation = consumer.incarnation ∧ q.definition.autoDelete = true ∧
        s.broker.live.topology.references.consumersOf consumer.queue = 1) ∧
      (∃ s', after.server? number = some s' ∧ s'.broker.live = s.broker.live ∧
        s'.connection? conn = some (c.eraseConsumer channel tag)) ∧
      ∀ later s', (after.afterAll later).server? number = some s' → ∀ m : medium,
        s'.serve m (.cancel conn channel tag) =
          (if s'.hasChannel conn channel then .error (.notFound (.consumer tag)) else .ok .absent,
            s', m) := by
  generalize hh : (fresh settings nonce shared first).afterAll events = h at hs hfailed
  have horderly : s.Orderly := by
    rw [← hh] at hs
    exact lasting_server? lasting_orderly hs
  have hnumbered : h.Numbered := by
    rw [← hh]
    exact (numbered_fresh settings nonce shared first).afterAll events
  obtain ⟨hid, -, hknown⟩ := horderly.filed conn.number c hc
  have horderly' := horderly.serve h.medium (.cancel conn channel tag)
  rw [serve_cancel hc hfound] at horderly'
  rw [ask_of_server? hs, serve_cancel hc hfound] at hfailed
  obtain ⟨hresult, hafter⟩ := Prod.mk.inj hfailed
  obtain ⟨hcause, hlive, hlast⟩ :=
    Connection.leave_failed horderly.wellFormed hopen (error_of_map hresult)
  generalize hleft : (Connection.leave consumer s.broker h.medium).2 = left
    at hafter hlive horderly'
  have hcalls : Broker.Calls (s.broker, h.medium) left := by
    rw [← hleft]
    exact (Connection.leave_errands consumer s.broker h.medium).calls
  subst hafter
  -- the server that is kept has forgotten the tag, and is followed from there
  let kept := s.keep (c.eraseConsumer channel tag) left.1
  have hkept : kept.connection? conn = some (c.eraseConsumer channel tag) := by
    show (s.connections.insert c.id.number _)[conn.number]? = _
    rw [hid, ByNumber.getElem?_insert, if_pos rfl]
  have hforgets : kept.Forgets conn channel tag := by
    refine ⟨Nat.lt_of_lt_of_le hknown (hcalls.renews horderly.wellFormed).2, ?_⟩
    intro d hd
    rw [hkept] at hd
    injection hd with hd
    rw [← hd]
    exact (horderly.connections conn.number c hc).spent hfound
  refine ⟨⟨hcause, hlast⟩, ⟨kept, server?_keep _ _ _ _, hlive, hkept⟩, ?_⟩
  intro later s' hs' m
  let inv : Server handle → Prop := fun s => s.Orderly ∧ s.Forgets conn channel tag
  have hendures : Enduring medium inv := enduring_forgets conn channel tag
  have hfollows : (h.keep number kept left.2).Follows number inv := by
    refine ⟨hnumbered.server? hs, ?_⟩
    intro t ht
    replace ht : (h.servers.insert number kept)[number]? = some t := ht
    rw [ByNumber.getElem?_insert, if_pos rfl] at ht
    injection ht with ht
    exact ht ▸ ⟨horderly', hforgets⟩
  obtain ⟨horderly'', hforgets'⟩ := (hfollows.afterAll hendures later).server? hendures hs'
  exact hforgets'.cancel horderly'' m

end Host

end

namespace Host

/-- A log in memory with one auto-delete queue on it, which may take nothing more. -/
def oneQueue (refusals : Refusals) : MemoryLog where
  entries := [⟨2, [.declareQueue "q" true]⟩]
  refusals := refusals

/-- The last consumer of that queue, when the log takes nothing more. -/
def lastConsumer : List (Event MemoryLog) :=
  [.start, .ask 0 .connect, .ask 0 (.openChannel ⟨1⟩),
    .ask 0 (.onChannel ⟨1⟩ 1 (.declareQueue ⟨"q", true, false, true⟩ false)),
    .ask 0 (.consume ⟨1⟩ 1 "q"), .disturb (oneQueue { append := some "full" })]

/-- The last consumer of an auto-delete queue that lasts. -/
theorem failed_cancel_loses_tag_of_full_log :
    ∃ (s : Server Unit) (c : Connection) (consumer : Consumer) (e : Refusal)
        (after : Host MemoryLog Unit),
      ((fresh {} 1 none {}).afterAll lastConsumer).server? 0 = some s ∧
      s.broker.isClosed = false ∧ s.connection? ⟨1⟩ = some c ∧
      (c.channel 1).consumers["ctag-1.1-1"]? = some consumer ∧
      ((fresh {} 1 none {}).afterAll lastConsumer).ask 0 (.cancel ⟨1⟩ 1 "ctag-1.1-1") =
        (.error e, after) ∧
      ∃ s', after.server? 0 = some s' ∧ s'.broker.live = s.broker.live ∧
        s'.connection? ⟨1⟩ = some (c.eraseConsumer 1 "ctag-1.1-1") := by
  obtain ⟨s, hs, hopen, hconnection⟩ : ∃ s : Server Unit,
      ((fresh {} 1 none {}).afterAll lastConsumer).server? 0 = some s ∧
        s.broker.isClosed = false ∧ (s.connection? ⟨1⟩).any (fun c =>
          (c.channel 1).consumers["ctag-1.1-1"]?.isSome) = true :=
    ⟨_, (Option.some_get (by decide +kernel)).symm, by decide +kernel, by decide +kernel⟩
  obtain ⟨c, hc, hconsumer⟩ := (Option.any_eq_true _ _).1 hconnection
  obtain ⟨consumer, hfound⟩ := Option.isSome_iff_exists.1 hconsumer
  have hresult : (((fresh {} 1 none {} : Host MemoryLog Unit).afterAll lastConsumer).ask 0
      (.cancel ⟨1⟩ 1 "ctag-1.1-1")).1 = .error (.journal (.write (.refused "full"))) := by
    decide +kernel
  have hfailed := Prod.ext (y := (_, _)) hresult rfl
  exact ⟨s, c, consumer, _, _, hs, hopen, hc, hfound, hfailed,
    (failed_cancel_loses_tag _ _ _ _ _ hs hopen hc hfound hfailed).2.1⟩

/-- The tag of that consumer is gone with the failure, the consumer is still counted, and when the
log takes everything again, the tag is not found and the queue stays. -/
theorem failed_cancel_not_retried :
    (((fresh {} 1 none {}).afterAll lastConsumer).server? 0).map
        (fun s : Server Unit => s.tags ⟨1⟩ 1) = some ["ctag-1.1-1"] ∧
      (((fresh {} 1 none {} : Host MemoryLog Unit).afterAll lastConsumer).ask 0
        (.cancel ⟨1⟩ 1 "ctag-1.1-1")).1 = .error (.journal (.write (.refused "full"))) ∧
      let after : Host MemoryLog Unit := (fresh {} 1 none {}).afterAll
        (lastConsumer ++ [.ask 0 (.cancel ⟨1⟩ 1 "ctag-1.1-1"), .disturb (oneQueue {})])
      (after.server? 0).map (fun s => (s.tags ⟨1⟩ 1,
          s.broker.live.topology.references.consumersOf "q")) = some ([], 1) ∧
        (after.ask 0 (.cancel ⟨1⟩ 1 "ctag-1.1-1")).1 =
          .error (.notFound (.consumer "ctag-1.1-1")) ∧
        ((after.ask 0 (.cancel ⟨1⟩ 1 "ctag-1.1-1")).2.server? 0).map (fun s =>
          (s.broker.live.topology.registry.hasQueue "q",
            s.broker.live.topology.references.consumersOf "q")) = some (true, 1) := by
  decide +kernel

end Host

end BrokerTopology
