/-
  BrokerTopology.Proofs.ConsumerCounts — the consumers of a queue are
  those that joined it.

  A broker counts the consumers of a queue, by name; channels keep them
  one by one, with the name and the incarnation that they joined.  The
  count goes when the queue does, the channels keep what they have.  So
  the two agree on what belongs to the queue that is there now: a queue
  that is declared starts from nothing, and nobody has joined under its
  incarnation yet.

  The count and the channels change together as long as consumers come
  and go through channels alone, and as long as none is kept from leaving
  by the log.  Everything else leaves both alone.

  Main statements:
    * `Operation.Effect.tallies` — an operation that counts no consumer.
    * `Connection.leaveAll_attends` — consumers that leave.
    * `Server.Orderly.serve_attends` — one request.
    * `Server.Attended.consumers_counted` — the counts of a server are
      those of its channels, at every point of a run.
-/
import BrokerTopology.Proofs.OperationEffects
import BrokerTopology.Proofs.ServerInvariant
import BrokerTopology.Proofs.WritableLogs

namespace BrokerTopology

/-! ## §1. The consumers on channels -/

namespace Connection

/-- The consumers on the channels of a connection, one for each tag. -/
def consumers (c : Connection) : List Consumer :=
  c.channels.values.flatMap fun ch => ch.consumers.values

variable {c : Connection} {number : Nat}

/-- The consumers on all channels but one. -/
def consumersBut (c : Connection) (number : Nat) : List Consumer :=
  (c.channels.erase number).values.flatMap fun ch => ch.consumers.values

/-- With one channel put in a place, the consumers are those on it and those on the others. -/
theorem consumers_insert {c' : Connection} {ch : Channel}
    (hchannels : c'.channels = c.channels.insert number ch) :
    c'.consumers.Perm (ch.consumers.values ++ c.consumersBut number) := by
  unfold consumers
  rw [hchannels]
  exact (OrderedMap.values_insert c.channels number ch).flatMap_right _

/-- The consumers on one channel and those on the others. -/
theorem consumers_perm (c : Connection) (number : Nat) :
    c.consumers.Perm ((c.channel number).consumers.values ++ c.consumersBut number) := by
  cases hch : c.channels[number]? with
  | none =>
    have hnone : (c.channel number).consumers.values = [] := by
      rw [channel, hch]
      rfl
    rw [hnone, List.nil_append, consumersBut, OrderedMap.erase_of_getElem? hch]
    exact .refl _
  | some ch =>
    rw [channel_of_some hch]
    exact (OrderedMap.values_of_getElem? hch).flatMap_right _

theorem consumers_openChannel (hc : c.Orderly) : c.openChannel.2.consumers.Perm c.consumers := by
  have hfree : c.channels[c.nextChannel]? = none := by
    cases hch : c.channels[c.nextChannel]? with
    | none => rfl
    | some ch => exact absurd (hc.channels _ ch hch) (Nat.lt_irrefl _)
  refine (consumers_insert (c := c) rfl).trans ?_
  rw [consumersBut, OrderedMap.erase_of_getElem? hfree]
  exact .refl _

/-- A tag that is given out is not on the channel yet. -/
theorem Orderly.tag_free (hc : c.Orderly) (number : Nat) :
    (c.channel number).consumers[c.tag number]? = none := by
  cases hfound : (c.channel number).consumers[c.tag number]? with
  | none => rfl
  | some consumer =>
    obtain ⟨ch, hch, hconsumer⟩ := has_of_channel hfound
    obtain ⟨n, hn, htag⟩ := hc.tags number ch _ consumer hch hconsumer
    exact absurd (c.tag_injective htag) (Nat.ne_of_gt hn)

theorem consumers_addConsumer (hc : c.Orderly) (number : Nat) (consumer : Consumer) :
    (c.addConsumer number consumer).consumers.Perm (consumer :: c.consumers) := by
  have hchannel := OrderedMap.values_insert (c.channel number).consumers (c.tag number) consumer
  rw [OrderedMap.erase_of_getElem? (hc.tag_free number)] at hchannel
  refine (consumers_insert rfl).trans ((hchannel.append_right _).trans ?_)
  exact (c.consumers_perm number).symm.cons consumer

theorem consumers_eraseConsumer {tag : String} {consumer : Consumer}
    (hfound : (c.channel number).consumers[tag]? = some consumer) :
    c.consumers.Perm (consumer :: (c.eraseConsumer number tag).consumers) := by
  have hchannel := OrderedMap.values_of_getElem? hfound
  refine (c.consumers_perm number).trans ((hchannel.append_right _).trans ?_)
  exact (consumers_insert rfl).symm.cons consumer

theorem consumers_eraseChannel (c : Connection) (number : Nat) :
    c.consumers.Perm
      ((c.channel number).consumers.values ++ (c.eraseChannel number).consumers) :=
  c.consumers_perm number

end Connection

namespace Server

variable {handle : Type} {s : Server handle}

/-- The consumers on the open channels of a server, one for each tag. -/
def consumers (s : Server handle) : List Consumer :=
  s.connections.values.flatMap Connection.consumers

/-- The consumers on all connections but one. -/
def consumersBut (s : Server handle) (number : Nat) : List Consumer :=
  (s.connections.erase number).values.flatMap Connection.consumers

theorem consumers_keep (s : Server handle) (c : Connection) (b : Broker handle) :
    (s.keep c b).consumers.Perm (c.consumers ++ s.consumersBut c.id.number) :=
  (OrderedMap.values_insert s.connections c.id.number c).flatMap_right _

theorem consumers_perm {conn : ConnectionId} {c : Connection} (hc : s.connection? conn = some c) :
    s.consumers.Perm (c.consumers ++ s.consumersBut conn.number) :=
  (OrderedMap.values_of_getElem? hc).flatMap_right _

end Server

/-! ## §2. Counting -/

namespace Topology

/-- The consumers of every queue that is there are counted right, and all have joined before. -/
structure Tallies (t : Topology) (consumers : List Consumer) : Prop where
  counted : ∀ name q, t.registry.queue? name = some q →
    t.references.consumersOf name = consumers.count ⟨name, q.incarnation⟩
  joined : ∀ consumer ∈ consumers, consumer.incarnation ≤ t.registry.lastIncarnation

variable {t t' : Topology} {consumers : List Consumer}

theorem Tallies.perm (h : t.Tallies consumers) {others : List Consumer}
    (hperm : consumers.Perm others) : t.Tallies others where
  counted name q hq := (h.counted name q hq).trans (hperm.count_eq _)
  joined consumer hconsumer := h.joined consumer (hperm.mem_iff.2 hconsumer)

/-- Only queues are gone that were there. -/
theorem Tallies.fewer (h : t.Tallies consumers)
    (hqueues : ∀ name q, t'.registry.queue? name = some q → t.registry.queue? name = some q ∧
      t'.references.consumersOf name = t.references.consumersOf name)
    (hlast : t'.registry.lastIncarnation = t.registry.lastIncarnation) :
    t'.Tallies consumers := by
  refine ⟨?_, fun consumer hconsumer => hlast ▸ h.joined consumer hconsumer⟩
  intro name q hq
  obtain ⟨hq, hcount⟩ := hqueues name q hq
  exact hcount.trans (h.counted name q hq)

/-- Nobody has joined a queue that was just declared, and nobody is counted. -/
theorem Tallies.addQueue (h : t.Tallies consumers) (hwf : t.WellFormed) {d : QueueDef}
    (hnew : t.registry.queue? d.name = none) (owner : Option ConnectionId) :
    (t.addQueue d owner).Tallies consumers := by
  refine ⟨?_, fun consumer hconsumer => Nat.le_succ_of_le (h.joined consumer hconsumer)⟩
  intro name q hq
  rw [queue?_addQueue] at hq
  split at hq
  next hname =>
    injection hq with hq
    subst hq hname
    have hidle : t.references.consumersOf d.name = 0 :=
      hwf.consumers_idle _ (Registry.hasQueue_eq_false_iff.2 hnew)
    refine hidle.trans (List.count_eq_zero_of_not_mem ?_).symm
    -- its number is above all that anybody has joined under
    intro hmem
    exact absurd (h.joined _ hmem) (Nat.not_succ_le_self _)
  next => exact h.counted name q hq

theorem Tallies.join (h : t.Tallies consumers) (hnumbered : t.Numbered) {name : String} {q : Queue}
    (hq : t.registry.queue? name = some q) :
    { t with references := t.references.consumerAdded name }.Tallies
      (⟨name, q.incarnation⟩ :: consumers) := by
  constructor
  · intro other q' hq'
    show (t.references.consumerAdded name).consumersOf other = _
    rw [ReferenceCounts.consumersOf_consumerAdded, List.count_cons]
    split
    next hname =>
      subst hname
      obtain rfl : q' = q := Option.some.inj (hq'.symm.trans hq)
      rw [h.counted name q' hq, if_pos (beq_self_eq_true _)]
    next hname =>
      rw [if_neg (by simp [hname]), Nat.add_zero]
      exact h.counted other q' hq'
  · intro consumer hconsumer
    rcases List.mem_cons.1 hconsumer with rfl | hconsumer
    · exact hnumbered name q hq
    · exact h.joined consumer hconsumer

/-- A consumer goes that is not on a queue that is there. -/
theorem Tallies.drop {consumer : Consumer} (h : t.Tallies (consumer :: consumers))
    (hgone : ∀ q, t.registry.queue? consumer.queue = some q →
      q.incarnation ≠ consumer.incarnation) : t.Tallies consumers := by
  refine ⟨?_, fun other hother => h.joined other (List.mem_cons_of_mem _ hother)⟩
  intro name q hq
  rw [h.counted name q hq, List.count_cons, if_neg, Nat.add_zero]
  intro hsame
  obtain rfl := beq_iff_eq.1 hsame
  exact hgone q hq rfl

/-- A consumer leaves the queue that it joined. -/
theorem Tallies.leave {consumer : Consumer} (h : t.Tallies (consumer :: consumers)) {q : Queue}
    (hq : t.registry.queue? consumer.queue = some q) (hsame : consumer.incarnation = q.incarnation)
    {n : Nat} {references : ReferenceCounts}
    (hr : t.references.consumerRemoved? consumer.queue = some (n, references)) :
    { t with references }.Tallies consumers := by
  refine ⟨?_, fun other hother => h.joined other (List.mem_cons_of_mem _ hother)⟩
  intro name q' hq'
  obtain ⟨hcount, hleft, -⟩ := ReferenceCounts.consumersOf_consumerRemoved? hr name
  have hbefore := h.counted name q' hq'
  rw [List.count_cons] at hbefore
  refine hleft.trans ?_
  split
  next hname =>
    subst hname
    obtain rfl : q' = q := Option.some.inj (hq'.symm.trans hq)
    rw [hcount, ← hsame, if_pos (beq_self_eq_true consumer)] at hbefore
    rw [← hsame]
    omega
  next hname =>
    rw [if_neg, Nat.add_zero] at hbefore
    · exact hbefore
    · intro heq
      exact hname (congrArg Consumer.queue (beq_iff_eq.1 heq))

end Topology

namespace LiveState

/-- What a removal leaves of the counts. -/
theorem Without.tallies {s s' : LiveState} {r : Removal} {consumers : List Consumer}
    (hwithout : s'.Without s r) (h : s.topology.Tallies consumers) :
    s'.topology.Tallies consumers := by
  refine h.fewer ?_ hwithout.topology.lastIncarnation
  intro name q hq
  rw [hwithout.topology.queues] at hq
  split at hq
  next => cases hq
  next hne => exact ⟨hq, by rw [hwithout.topology.consumers, if_neg hne]⟩

end LiveState

namespace Operation

open LiveState

variable {matcher : Matcher} {conn : ConnectionId} {s s' : LiveState} {op : Operation}
  {consumers : List Consumer}

/-- An operation that counts no consumer leaves the counts right. -/
theorem Effect.tallies (heffect : Effect matcher conn s op s') (hop : op.countsByHand = false)
    (hwf : s.topology.WellFormed) (h : s.topology.Tallies consumers) :
    s'.topology.Tallies consumers := by
  cases heffect with
  | same => exact h
  | names => exact ⟨h.counted, h.joined⟩
  | exchange => exact ⟨h.counted, h.joined⟩
  | @queue _ _ _ g _ _ hnew =>
    have hdrawn : (s.topology.withGenerator g).Tallies consumers := ⟨h.counted, h.joined⟩
    exact hdrawn.addQueue (hwf.withGenerator g) hnew _
  | @binding b =>
    obtain ⟨hregistry, hconsumers⟩ := Topology.addBinding_rest s.topology b
    refine h.fewer ?_ (congrArg Registry.lastIncarnation hregistry)
    intro name q hq
    exact ⟨(congrArg (·.queue? name) hregistry).symm.trans hq,
      congrArg (NameCounts.countOf · name) hconsumers⟩
  | removed _ hs' => exact hs'.tallies h
  | published => exact h
  | fetched => exact h
  | purged => exact h
  | joined => cases hop
  | nobodyLeft => exact h
  | left => cases hop

end Operation

/-! ## §3. Consumers that leave -/

namespace LiveState

variable {s : LiveState} {consumer : Consumer} {consumers : List Consumer}

/-- A consumer is refused only if the queue that it means is not there. -/
theorem detachConsumer_error {name : String} {incarnation : Option Nat} {e : Refusal}
    (hd : detachConsumer name incarnation s = .error e) :
    e = .noQueue name ∧ ∀ q, s.topology.registry.queue? name = some q →
      ∃ n ∈ incarnation, n ≠ q.incarnation := by
  unfold detachConsumer at hd
  split at hd
  next hnone =>
    injection hd with hd
    exact ⟨hd.symm, fun q hq => absurd (hnone.symm.trans hq) nofun⟩
  next q hq =>
    split at hd
    next hother =>
      injection hd with hd
      refine ⟨hd.symm, fun q' hq' => ?_⟩
      obtain rfl : q = q' := Option.some.inj (hq.symm.trans hq')
      simpa [Option.any_eq_true] using hother
    next =>
      split at hd
      next => cases hd
      next => cases hd

/-- What is left when a consumer has left the queue that it joined. -/
theorem tallies_of_detachConsumer {matcher : Matcher} {conn : ConnectionId} {s' : LiveState}
    (heffect : Operation.Effect matcher conn s (.detachConsumer consumer.queue) s') {q : Queue}
    (hq : s.topology.registry.queue? consumer.queue = some q)
    (hsame : consumer.incarnation = q.incarnation)
    (h : s.topology.Tallies (consumer :: consumers)) : s'.topology.Tallies consumers := by
  cases heffect with
  | same _ hcounts => cases hcounts
  | removed hr hs' =>
    obtain ⟨-, -, rfl⟩ := Operation.last_of_removal? hr
    refine (hs'.tallies h).drop fun q' hq' => ?_
    rw [hs'.topology.queues, if_pos rfl] at hq'
    cases hq'
  | nobodyLeft hnone =>
    -- the consumer that leaves is counted itself
    have hcount := h.counted consumer.queue q hq
    rw [hnone, ← hsame, List.count_cons_self] at hcount
    omega
  | left hr => exact h.leave hq hsame hr

end LiveState

section

variable {medium handle : Type} [Medium medium handle] {consumers : List Consumer}

namespace Broker

/-- A broker that is running and counts consumers right. -/
structure Attends (b : Broker handle) (consumers : List Consumer) : Prop where
  isOpen : b.isClosed = false
  wellFormed : b.live.topology.WellFormed
  tallies : b.live.topology.Tallies consumers

variable {b : Broker handle}

theorem Attends.perm (h : b.Attends consumers) {others : List Consumer}
    (hperm : consumers.Perm others) : b.Attends others :=
  ⟨h.isOpen, h.wellFormed, h.tallies.perm hperm⟩

/-- What is counted right if an operation succeeds is so whatever becomes of it. -/
theorem Attends.perform {α : Type} {d : Decision α} (h : b.Attends consumers) (hd : d.Stepwise)
    (htallies : ∀ change, d b.live = .ok change → change.live.topology.Tallies consumers)
    (m : medium) : (b.perform d m).2.1.Attends consumers where
  isOpen := (perform_rest d b m).2.2.trans h.isOpen
  wellFormed := (Call.perform hd b m).wellFormed h.wellFormed
  tallies := perform_live (P := fun s => s.topology.Tallies consumers) h.tallies
    (fun _ _ => ⟨h.tallies.counted, h.tallies.joined⟩) htallies m

theorem Attends.run (h : b.Attends consumers) (conn : ConnectionId) {op : Operation}
    (hop : op.countsByHand = false) (m : medium) : (b.run conn op m).2.1.Attends consumers := by
  refine h.perform (op.stepwise b.settings.matcher conn) ?_ m
  intro change hchange
  exact (Operation.effect h.wellFormed hchange).tallies hop h.wellFormed h.tallies

theorem Attends.compact (h : b.Attends consumers) (m : medium) :
    (b.compact m).2.1.Attends consumers := by
  refine ⟨(b.compact_isClosed m).trans h.isOpen, ?_, ?_⟩
  · rw [b.compact_live m]
    exact h.wellFormed
  · rw [b.compact_live m]
    exact h.tallies

end Broker

namespace Connection

open Broker

variable {b : Broker handle} {m : medium}

/-- A consumer that is not kept from leaving is counted no more. -/
theorem leave_attends {consumer : Consumer} (h : b.Attends (consumer :: consumers))
    (hleft : (leave consumer b m).1 = .ok ()) : (leave consumer b m).2.1.Attends consumers := by
  let detach := LiveState.detachConsumer consumer.queue (some consumer.incarnation)
  have hstepwise : detach.Stepwise := LiveState.detachConsumer_stepwise _ _
  have hwf := (Call.perform hstepwise b m).wellFormed h.wellFormed
  have hperformed := performed detach b m
  replace hleft : excuseNotFound () ((b.perform detach m).1.map fun _ => ()) = .ok () := hleft
  show (b.perform detach m).2.1.Attends consumers
  generalize b.perform detach m = outcome at hperformed hleft hwf ⊢
  cases hperformed with
  | closed => cases hleft
  | refused _ hd =>
    -- the queue that was joined is gone, and the consumer went out of its count with it
    refine ⟨h.isOpen, hwf, h.tallies.drop fun q hq => ?_⟩
    obtain ⟨n, hn, hne⟩ := (LiveState.detachConsumer_error hd).2 q hq
    obtain rfl : consumer.incarnation = n := Option.some.inj hn
    exact hne.symm
  | unrecorded => cases hleft
  | recorded _ hchange _ =>
    obtain ⟨⟨q, hq, hsame⟩, heffect⟩ :=
      LiveState.detachConsumer_effect b.settings.matcher .admin h.wellFormed hchange
    exact ⟨rfl, hwf, LiveState.tallies_of_detachConsumer heffect hq (hsame _ rfl) h.tallies⟩

/-- So it is with all of a list, if none is kept from leaving. -/
theorem leaveAll_attends {leaving : List Consumer} (h : b.Attends (leaving ++ consumers))
    (hleft : (leaveAll b m leaving).1 = .ok ()) :
    (leaveAll b m leaving).2.1.Attends consumers := by
  induction leaving generalizing b m with
  | nil => exact h
  | cons consumer leaving ih =>
    obtain ⟨_, hfirst, hothers⟩ := ok_of_bind hleft
    exact ih (leave_attends h hfirst) hothers

/-- Only a log that refuses keeps a consumer from leaving. -/
theorem leave_of_canRecord (consumer : Consumer) (h : b.CanRecord m) :
    (leave consumer b m).1 = .ok () ∧
      (leave consumer b m).2.1.CanRecord (leave consumer b m).2.2 := by
  let detach := LiveState.detachConsumer consumer.queue (some consumer.incarnation)
  show excuseNotFound () ((b.perform detach m).1.map fun _ => ()) = .ok () ∧
    (b.perform detach m).2.1.CanRecord (b.perform detach m).2.2
  rcases perform_of_canRecord detach h with ⟨e, hd, hperform⟩ | ⟨change, -, hok, -, -, hcan⟩
  · rw [hperform]
    obtain ⟨rfl, -⟩ := LiveState.detachConsumer_error hd
    exact ⟨rfl, h⟩
  · rw [hok]
    exact ⟨rfl, hcan⟩

theorem leaveAll_of_canRecord (leaving : List Consumer) (h : b.CanRecord m) :
    (leaveAll b m leaving).1 = .ok () := by
  induction leaving generalizing b m with
  | nil => rfl
  | cons consumer leaving ih =>
    obtain ⟨hfirst, hcan⟩ := leave_of_canRecord consumer h
    show ((leave consumer b m).1.bind fun _ => _) = .ok ()
    rw [hfirst]
    exact ih hcan

/-! ## §4. Channels and connections that close -/

theorem leave_isOpen (consumer : Consumer) (hopen : b.isClosed = false) :
    (leave consumer b m).2.1.isClosed = false :=
  (perform_rest _ b m).2.2.trans hopen

theorem leaveAll_isOpen (leaving : List Consumer) (hopen : b.isClosed = false) :
    (leaveAll b m leaving).2.1.isClosed = false := by
  induction leaving generalizing b m with
  | nil => exact hopen
  | cons consumer leaving ih => exact ih (leave_isOpen consumer hopen)

theorem leaveAll_append (b : Broker handle) (m : medium) (leaving others : List Consumer) :
    (leaveAll b m (leaving ++ others)).2 =
      (leaveAll (leaveAll b m leaving).2.1 (leaveAll b m leaving).2.2 others).2 := by
  induction leaving generalizing b m with
  | nil => rfl
  | cons consumer leaving ih => exact ih _ _

theorem closeChannel_of_isOpen (c : Connection) (number : Nat) (hopen : b.isClosed = false) :
    c.closeChannel number b m =
      ((leaveAll b m (c.channel number).consumers.values).1, c.eraseChannel number,
        (leaveAll b m (c.channel number).consumers.values).2) := by
  rw [closeChannel, hopen]
  rfl

/-- To close channels is to have the consumers on them leave. -/
theorem closeChannels_of_isOpen (c : Connection) {numbers : List Nat} (hnodup : numbers.Nodup)
    (hopen : b.isClosed = false) :
    (closeChannels c b m numbers).2 =
      (leaveAll b m (numbers.flatMap fun n => (c.channel n).consumers.values)).2 := by
  induction numbers generalizing c b m with
  | nil => rfl
  | cons number numbers ih =>
    obtain ⟨hnumber, hnodup⟩ := List.nodup_cons.1 hnodup
    -- the other channels keep their consumers when this one is erased
    have hothers : (numbers.flatMap fun n => ((c.eraseChannel number).channel n).consumers.values) =
        numbers.flatMap fun n => (c.channel n).consumers.values := by
      refine List.flatMap_congr fun n hn => ?_
      have hne : number ≠ n := fun heq => hnumber (heq ▸ hn)
      rw [channel, eraseChannel, Std.ExtTreeMap.getElem?_erase, if_neg (by simpa using hne)]
      rfl
    rw [closeChannels_cons, closeChannel_of_isOpen c number hopen, List.flatMap_cons,
      leaveAll_append, ih _ hnodup (leaveAll_isOpen _ hopen), hothers]

/-- The channels of a connection, by their numbers. -/
theorem flatMap_keys (c : Connection) :
    (c.channels.keys.flatMap fun n => (c.channel n).consumers.values) = c.consumers := by
  rw [consumers, OrderedMap.values_eq, ← Std.ExtTreeMap.map_fst_toList_eq_keys, List.flatMap_map,
    List.flatMap_map]
  refine List.flatMap_congr fun p hp => ?_
  rw [channel_of_some (Std.ExtTreeMap.mem_toList_iff_getElem?_eq_some.1 hp)]

theorem deleteQueues_attends (conn : ConnectionId) (queues : List String)
    (h : b.Attends consumers) : (deleteQueues conn b m queues).2.1.Attends consumers := by
  induction queues generalizing b m with
  | nil => exact h
  | cons queue queues ih =>
    have hdelete : (b.perform (LiveState.deleteQueue conn queue false false) m).2.1.Attends
        consumers := by
      refine h.perform (LiveState.deleteQueue_stepwise conn queue false false) ?_ m
      intro change hchange
      exact (LiveState.deleteQueue_without h.wellFormed hchange).1.tallies h.tallies
    unfold deleteQueues
    simp only
    split
    next => exact hdelete
    next => exact ih hdelete

theorem release_attends (conn : ConnectionId) (h : b.Attends consumers) :
    (release conn b m).2.1.Attends consumers := by
  unfold release
  split
  next => exact h
  next => exact deleteQueues_attends conn _ h

/-- When a connection closes, its consumers leave, and what it owns is deleted. -/
theorem close_attends {c : Connection} (h : b.Attends (c.consumers ++ consumers))
    (hleft : (leaveAll b m c.consumers).1 = .ok ()) : (c.close b m).2.1.Attends consumers := by
  have hnodup : c.channels.keys.Nodup := by
    refine Std.ExtTreeMap.distinct_keys.imp ?_
    rintro n n' hne rfl
    exact hne Std.ReflCmp.compare_self
  rw [close_eq, closeChannels_of_isOpen c hnodup h.isOpen, flatMap_keys]
  exact release_attends _ (leaveAll_attends h hleft)

/-! ## §5. Consumers on channels -/

/-- A consumer that can join its queue is counted, and is on its channel. -/
theorem consume_attends {c : Connection} (hc : c.Orderly) (h : b.Attends (c.consumers ++ consumers))
    (hnumbered : b.live.topology.Numbered) (number : Nat) (queue : String) :
    (c.consume number queue b m).2.2.1.Attends
      ((c.consume number queue b m).2.1.consumers ++ consumers) := by
  let attach := LiveState.attachConsumer c.id queue
  have hwf := (Call.perform (LiveState.attachConsumer_stepwise c.id queue) b m).wellFormed
    h.wellFormed
  have hperformed := performed attach b m
  have hcases := c.consume_cases number queue b m
  simp only at hcases
  generalize b.perform (LiveState.attachConsumer c.id queue) m = outcome at hperformed hwf hcases
  rcases hcases with ⟨e, hfailed, heq⟩ | ⟨a, hjoined, heq⟩
  · rw [heq]
    cases hperformed with
    | closed => exact h
    | refused => exact h
    | unrecorded => exact ⟨rfl, hwf, h.tallies.counted, h.tallies.joined⟩
    | recorded => cases hfailed
  · rw [heq]
    cases hperformed with
    | closed => cases hjoined
    | refused => cases hjoined
    | unrecorded => cases hjoined
    | recorded _ hchange _ =>
      obtain ⟨q, hq, rfl⟩ := LiveState.attachConsumer_ok hchange
      obtain rfl := Except.ok.inj hjoined
      refine ⟨rfl, hwf, (h.tallies.join hnumbered hq).perm ?_⟩
      exact ((c.consumers_addConsumer hc number _).symm.append_right consumers)

theorem consume_id (c : Connection) (number : Nat) (queue : String) :
    (c.consume number queue b m).2.1.id = c.id := by
  rcases c.consume_cases number queue b m with ⟨e, -, heq⟩ | ⟨a, -, heq⟩
  · rw [heq]
  · rw [heq]
    rfl

theorem cancel_id (c : Connection) (number : Nat) (tag : String) :
    (c.cancel number tag b m).2.1.id = c.id := by
  unfold cancel
  split
  next => rfl
  next => rfl

theorem cancel_attends {c : Connection} (h : b.Attends (c.consumers ++ consumers)) {number : Nat}
    {tag : String}
    (hleft : (leaveAll b m (c.channel number).consumers[tag]?.toList).1 = .ok ()) :
    (c.cancel number tag b m).2.2.1.Attends
      ((c.cancel number tag b m).2.1.consumers ++ consumers) := by
  unfold cancel
  cases hfound : (c.channel number).consumers[tag]? with
  | none => exact h
  | some consumer =>
    rw [hfound] at hleft
    have hleaving :
        b.Attends ([consumer] ++ ((c.eraseConsumer number tag).consumers ++ consumers)) :=
      h.perm ((consumers_eraseConsumer hfound).append_right consumers)
    exact leaveAll_attends hleaving hleft

theorem closeChannel_id (c : Connection) (number : Nat) :
    (c.closeChannel number b m).2.1.id = c.id := by
  rw [closeChannel_connection]
  rfl

theorem closeChannel_attends {c : Connection} (h : b.Attends (c.consumers ++ consumers))
    {number : Nat} (hleft : (leaveAll b m (c.channel number).consumers.values).1 = .ok ()) :
    (c.closeChannel number b m).2.2.1.Attends
      ((c.closeChannel number b m).2.1.consumers ++ consumers) := by
  rw [closeChannel_of_isOpen c number h.isOpen]
  refine leaveAll_attends (h.perm ?_) hleft
  rw [← List.append_assoc]
  exact (c.consumers_eraseChannel number).append_right consumers

end Connection

/-! ## §6. Requests -/

namespace Server

open Broker Connection

variable {s : Server handle} {m : medium}

/-- The consumers that leave with a request. -/
def leaving (s : Server handle) : Request → List Consumer
  | .cancel conn channel tag =>
    ((s.connection? conn).bind fun c => (c.channel channel).consumers[tag]?).toList
  | .closeChannel conn channel =>
    ((s.connection? conn).map fun c => (c.channel channel).consumers.values).getD []
  | .closeConnection conn => ((s.connection? conn).map Connection.consumers).getD []
  | _ => []

omit [Medium medium handle] in
/-- What became of a connection is put in its place. -/
theorem attends_keep (horderly : s.Orderly) {conn : ConnectionId} {c c' : Connection}
    (hc : s.connection? conn = some c) (hid : c'.id = c.id) {b : Broker handle}
    (h : b.Attends (c'.consumers ++ s.consumersBut conn.number)) :
    (s.keep c' b).broker.Attends (s.keep c' b).consumers := by
  refine Attends.perm h ?_
  have hkeep := s.consumers_keep c' b
  rw [hid, horderly.connection? hc] at hkeep
  exact hkeep.symm

omit [Medium medium handle] in
theorem attends_connect (horderly : s.Orderly) (h : s.broker.Attends s.consumers) :
    s.connect.2.broker.Attends s.connect.2.consumers := by
  have hfree : s.connections[s.broker.nextConnection]? = none := by
    cases hc : s.connections[s.broker.nextConnection]? with
    | none => rfl
    | some c => exact absurd (horderly.filed _ c hc).2.2 (Nat.lt_irrefl _)
  have hkeep := s.consumers_keep { id := ⟨s.broker.nextConnection⟩ } s.broker.connect.2
  rw [consumersBut, OrderedMap.erase_of_getElem? hfree] at hkeep
  exact ⟨h.isOpen, h.wellFormed, h.tallies.perm hkeep.symm⟩

/-- A request keeps the counts right, unless it shuts the broker down, counts a consumer by hand,
or has a consumer leave that the log does not let go. -/
theorem Orderly.serve_attends (horderly : s.Orderly) (h : s.broker.Attends s.consumers)
    {q : Request} (hq : q ≠ .shutdown) (hoffered : q.countsByHand = false)
    (hleft : (leaveAll s.broker m (s.leaving q)).1 = .ok ()) :
    (s.serve m q).2.1.broker.Attends (s.serve m q).2.1.consumers := by
  -- what is to be shown of the outcome, whichever it is
  let P : Outcome (Server handle × medium) Refusal Reply → Prop :=
    fun o => o.2.1.broker.Attends o.2.1.consumers
  have hsame : P (.ok .absent, s, m) := h
  have hhere : ∀ {conn c}, s.connection? conn = some c →
      s.broker.Attends (c.consumers ++ s.consumersBut conn.number) := fun hc =>
    h.perm (consumers_perm hc)
  cases q with
  | operation => exact h.run .admin hoffered m
  | compact => exact h.compact m
  | shutdown => exact absurd rfl hq
  | connect => exact attends_connect horderly h
  | openChannel conn =>
    refine onConnection_outcome (P := P) hsame fun c hc => ?_
    have hopened := c.consumers_openChannel (horderly.connections _ c hc)
    exact attends_keep horderly hc (show c.openChannel.2.id = c.id from rfl)
      ((hhere hc).perm (hopened.symm.append_right _))
  | closeConnection conn =>
    refine onConnection_outcome (P := P) hsame fun c hc => ?_
    rw [leaving, hc] at hleft
    exact close_attends (hhere hc) hleft
  | onChannel conn channel op =>
    refine onChannel_outcome (P := P) hsame fun c hc _ => ?_
    exact attends_keep horderly hc rfl ((hhere hc).run conn hoffered m)
  | consume conn channel queue =>
    refine onChannel_outcome (P := P) hsame fun c hc _ => ?_
    exact attends_keep horderly hc (consume_id c channel queue)
      (consume_attends (horderly.connections _ c hc) (hhere hc) horderly.numbered channel queue)
  | cancel conn channel tag =>
    refine onChannel_outcome (P := P) hsame fun c hc _ => ?_
    rw [leaving, hc] at hleft
    exact attends_keep horderly hc (cancel_id c channel tag) (cancel_attends (hhere hc) hleft)
  | closeChannel conn channel =>
    refine onChannel_outcome (P := P) hsame fun c hc _ => ?_
    rw [leaving, hc] at hleft
    exact attends_keep horderly hc (closeChannel_id c channel)
      (closeChannel_attends (hhere hc) hleft)

/-! ## §7. Runs -/

/-- A server that was opened, on whatever log, and asked for this and that since, on whatever
medium.  It was not shut down, no consumer was counted by hand, and none that was to leave was
kept by the log. -/
inductive Attended (medium : Type) {handle : Type} [Medium medium handle] : Server handle → Prop
  | opened {settings : BrokerSettings} {nonce : UInt64} {mailboxes : Mailboxes} {m : medium}
      {b : Broker handle} (hopen : (openOn settings nonce mailboxes m).1 = .ok b) :
      Attended medium { broker := b }
  | served {s : Server handle} (hs : Attended medium s) (m : medium) (q : Request)
      (hq : q ≠ .shutdown) (hoffered : q.countsByHand = false)
      (hleft : (leaveAll s.broker m (s.leaving q)).1 = .ok ()) :
      Attended medium (s.serve m q).2.1
  | mailed {s : Server handle} (hs : Attended medium s) (mailboxes : Mailboxes) :
      Attended medium { s with broker := s.broker.withMailboxes mailboxes }

/-- Nobody has joined a queue of a broker that was just opened. -/
theorem openOn_attends {settings : BrokerSettings} {nonce : UInt64} {mailboxes : Mailboxes}
    {b : Broker handle} (hopen : (openOn settings nonce mailboxes m).1 = .ok b) :
    b.Attends [] := by
  have hwf := openOn_wellFormed hopen
  obtain ⟨log, entries, -, rfl⟩ := openOn_log hopen
  exact ⟨rfl, hwf, fun name q _ => Topology.consumersOf_restore name, nofun⟩

theorem Attended.attends {s : Server handle} (hs : Attended medium s) :
    s.Orderly ∧ s.broker.Attends s.consumers := by
  -- together, since tags and numbers that are given out anew keep the consumers apart
  induction hs with
  | opened hopen => exact ⟨lasting_orderly.opened hopen, openOn_attends hopen⟩
  | served _ m q hq hoffered hleft ih =>
    exact ⟨ih.1.serve m q, ih.1.serve_attends ih.2 hq hoffered hleft⟩
  | mailed _ mailboxes ih =>
    have hlasting : Lasting medium (Orderly : Server handle → Prop) := lasting_orderly
    exact ⟨hlasting.mailed ih.1 mailboxes, ih.2.isOpen, ih.2.wellFormed, ih.2.tallies⟩

/-- What requests, one after the other, make of a server and its medium. -/
def serveAll (s : Server handle) (m : medium) (requests : List Request) :
    Server handle × medium :=
  requests.foldl (fun after q => (after.1.serve after.2 q).2) (s, m)

/-- On a log that refuses nothing every consumer can leave. -/
theorem Attended.serveAll {s : Server handle} (hs : Attended medium s) (hcan : s.broker.CanRecord m)
    (requests : List Request) (hrequests : ∀ q ∈ requests, q ≠ .shutdown ∧ q.countsByHand = false) :
    Attended medium (s.serveAll m requests).1 := by
  induction requests generalizing s m with
  | nil => exact hs
  | cons q requests ih =>
    obtain ⟨⟨hq, hoffered⟩, hothers⟩ := List.forall_mem_cons.1 hrequests
    have hafter := hs.served m q hq hoffered (leaveAll_of_canRecord _ hcan)
    exact ih hafter ((s.serve_calls m q).canRecord hcan hafter.attends.2.isOpen) hothers

/-- At every point of such a run the consumers counted for a queue are those on open channels
that joined the queue that is there now, one for each tag. -/
theorem Attended.consumers_counted {s : Server handle} (hs : Attended medium s) {name : String}
    {q : Queue} (hq : s.broker.live.topology.registry.queue? name = some q) :
    s.broker.live.topology.references.consumersOf name =
      s.consumers.count ⟨name, q.incarnation⟩ :=
  hs.attends.2.tallies.counted name q hq

/-- A queue is deleted and declared anew, with consumers of both on two channels; then one of each
leaves. -/
theorem Attended.consumers_counted_of_redeclared :
    ∃ (s : Server Unit) (q : Queue), Attended MemoryLog s ∧
      s.broker.live.topology.registry.queue? "q" = some q ∧
      s.tags ⟨1⟩ 1 = ["ctag-1.1-1", "ctag-1.1-3"] ∧ s.tags ⟨1⟩ 2 = ["ctag-1.2-4"] ∧
      s.broker.live.topology.references.consumersOf "q" = 2 ∧
      s.broker.live.topology.references.consumersOf "q" =
        s.consumers.count ⟨"q", q.incarnation⟩ := by
  have hopen : (openOn {} 1 .empty ({} : MemoryLog)).1 = .ok _ := rfl
  have hwritable : LogStore.Writable ((), ({} : MemoryLog)) := LogStore.writable_memory rfl
  have hs := (Attended.opened hopen).serveAll ⟨_, rfl, hwritable⟩
    [.connect, .openChannel ⟨1⟩, .openChannel ⟨1⟩,
      .onChannel ⟨1⟩ 1 (.declareQueue ⟨"q", true, false, false⟩ false), .consume ⟨1⟩ 1 "q",
      .consume ⟨1⟩ 2 "q", .onChannel ⟨1⟩ 2 (.deleteQueue "q" false false),
      .onChannel ⟨1⟩ 2 (.declareQueue ⟨"q", false, true, false⟩ false), .consume ⟨1⟩ 1 "q",
      .consume ⟨1⟩ 2 "q", .cancel ⟨1⟩ 2 "ctag-1.2-2"] (by decide)
  refine ⟨_, _, hs, (Option.some_get ?_).symm, ?_, ?_, ?_,
    hs.consumers_counted (Option.some_get ?_).symm⟩
  all_goals decide +kernel

end Server

end

end BrokerTopology
