/-
  BrokerTopology.Proofs.OwnedQueues — the owners of exclusive queues, and
  what a connection takes along when it closes.

  An exclusive queue belongs to the connection that it was declared on,
  or to the administrative context.  A connection that closes deletes
  the queues that it owns, one after the other, and each of them takes
  its bindings along and the auto-delete exchanges whose last bindings
  those were.  What is left has a description in which no order occurs:
  `WithoutQueues` says it of any set of queues, and removing one set
  after another is removing both.

  A queue that is in the way of nothing but its log cannot be kept from
  being deleted by its owner.  So as long as the log refuses nothing, a
  connection leaves no queue behind, and every owner is open.  The
  channels of a connection do not outlive it: they are closed first, and
  what it owns is what it owns then.

  Main statements:
    * `WithoutQueues.trans` — queues removed one after the other.
    * `Connection.perform_deleteQueue_of_owns` — one queue, on a log that may
      refuse.
    * `Connection.release_withoutQueues` — what is released.
    * `Server.Unrefused.owned_until_closed` — in every run owners are open,
      and to close one removes exactly what it owns.
-/
import BrokerTopology.Proofs.ConsumerCounts

namespace BrokerTopology

theorem Removal.queue_eq_iff {name q : String} :
    Removal.queue name = .queue q ↔ (q == name) = true := by
  rw [Removal.queue.injEq, beq_iff_eq, eq_comm]

namespace Topology

/-! ## §1. Queues removed together -/

/-- Whether an auto-delete exchange has bindings, and all of them to queues of a set. -/
def binds (t : Topology) (gone : String → Bool) (x : String) : Bool :=
  t.autoDeletes x &&
    ((t.bindings.ofExchange x).any (fun b => gone b.queue) &&
      (t.bindings.ofExchange x).all fun b => gone b.queue)

/-- The first topology is left of the second when the queues of a set are removed from it. -/
structure WithoutQueues (t' t : Topology) (gone : String → Bool) : Prop where
  /-- Gone is every auto-delete exchange that was bound, and to no other queues. -/
  exchanges : ∀ x, t'.registry.exchange? x =
    if t.binds gone x = true then none else t.registry.exchange? x
  queues : ∀ q, t'.registry.queue? q = if gone q = true then none else t.registry.queue? q
  bindings : ∀ b, b ∈ t'.bindings ↔ b ∈ t.bindings ∧ gone b.queue = false
  consumers : ∀ q, t'.references.consumersOf q =
    if gone q = true then 0 else t.references.consumersOf q

variable {t t' t'' : Topology} {gone gone' : String → Bool}

theorem WellFormed.binds_iff (h : t.WellFormed) {x : String} :
    t.binds gone x = true ↔
      t.autoDeletes x = true ∧
        (∃ b ∈ t.bindings, b.exchange = x ∧ gone b.queue = true) ∧
        ∀ b ∈ t.bindings, b.exchange = x → gone b.queue = true :=
  h.bound_only_iff

/-- To remove a queue is to remove a set of one. -/
theorem Without.withoutQueues {name : String} (h : t'.Without t (.queue name)) :
    t'.WithoutQueues t (· == name) := by
  refine ⟨?_, ?_, h.bindings, ?_⟩
  · intro x
    rw [h.exchanges]
    simp [strands, binds, Removal.covers]
  · intro q
    simp only [h.queues, Removal.queue_eq_iff]
  · intro q
    simp only [h.consumers, Removal.queue_eq_iff]

theorem WithoutQueues.refl (t : Topology) : t.WithoutQueues t fun _ => false := by
  refine ⟨?_, fun q => rfl, fun b => by simp, fun q => rfl⟩
  intro x
  simp [binds]

/-- An exchange is bound to the queues of two sets only, if it is to those of the one, or, once
these are gone, to those of the other. -/
theorem WithoutQueues.binds_or (h : t'.WithoutQueues t gone) (hwf : t.WellFormed)
    (hwf' : t'.WellFormed) (x : String) :
    t.binds (fun q => gone q || gone' q) x = true ↔
      t.binds gone x = true ∨ t'.binds gone' x = true := by
  rw [hwf.binds_iff, hwf'.binds_iff]
  simp only [autoDeletes, h.exchanges, h.bindings, Bool.or_eq_true]
  by_cases hfirst : t.binds gone x = true
  · -- it went with the first set
    obtain ⟨hauto, ⟨b, hb, hx, hgone⟩, hall⟩ := hwf.binds_iff.1 hfirst
    simp only [hfirst, true_or, iff_true]
    exact ⟨hauto, ⟨b, hb, hx, Or.inl hgone⟩, fun c hc hcx => Or.inl (hall c hc hcx)⟩
  · simp only [hfirst, false_or, Bool.false_eq_true, ↓reduceIte]
    refine and_congr_right fun hauto => ⟨?_, ?_⟩
    · rintro ⟨⟨b, hb, hx, hgone⟩, hall⟩
      refine ⟨?_, fun c hc hcx => (hall c hc.1 hcx).resolve_left (by simp [hc.2])⟩
      -- some binding is left by the first set, or that would have taken the exchange along
      by_contra hnone
      have hcovered : ∀ c ∈ t.bindings, c.exchange = x → gone c.queue = true := by
        intro c hc hcx
        by_contra hleft
        have hleft : gone c.queue = false := by simpa using hleft
        exact hnone ⟨c, ⟨hc, hleft⟩, hcx, (hall c hc hcx).resolve_left (by simp [hleft])⟩
      exact hfirst (hwf.binds_iff.2 ⟨hauto, ⟨b, hb, hx, hcovered b hb hx⟩, hcovered⟩)
    · rintro ⟨⟨b, hb, hx, hgone⟩, hall⟩
      refine ⟨⟨b, hb.1, hx, Or.inr hgone⟩, fun c hc hcx => ?_⟩
      by_cases hleft : gone c.queue = true
      · exact Or.inl hleft
      · exact Or.inr (hall c ⟨hc, by simpa using hleft⟩ hcx)

/-- What is left when one set of queues is removed after another. -/
theorem WithoutQueues.trans (h : t'.WithoutQueues t gone) (h' : t''.WithoutQueues t' gone')
    (hwf : t.WellFormed) (hwf' : t'.WellFormed) :
    t''.WithoutQueues t fun q => gone q || gone' q := by
  refine ⟨?_, ?_, ?_, ?_⟩
  · intro x
    rw [h'.exchanges, h.exchanges]
    simp only [h.binds_or hwf hwf' x]
    by_cases hfirst : t.binds gone x = true <;> by_cases hnext : t'.binds gone' x = true <;>
      simp [hfirst, hnext]
  · intro q
    rw [h'.queues, h.queues]
    by_cases hfirst : gone q = true <;> by_cases hnext : gone' q = true <;> simp [hfirst, hnext]
  · intro b
    rw [h'.bindings, h.bindings, Bool.or_eq_false_iff, and_assoc]
  · intro q
    rw [h'.consumers, h.consumers]
    by_cases hfirst : gone q = true <;> by_cases hnext : gone' q = true <;> simp [hfirst, hnext]

/-! ## §2. Owners -/

/-- Whether a connection owns the queue of a name. -/
def owns (t : Topology) (conn : ConnectionId) (name : String) : Bool :=
  (t.registry.queue? name).any fun q => q.owner == some conn

theorem owns_iff {conn : ConnectionId} {name : String} :
    t.owns conn name = true ↔ ∃ q, t.registry.queue? name = some q ∧ q.owner = some conn := by
  rw [owns, Option.any_eq_true]
  simp only [beq_iff_eq]

/-- The owner of queues keeps those that are not removed. -/
theorem WithoutQueues.owns (h : t'.WithoutQueues t gone) (conn : ConnectionId) (name : String) :
    t'.owns conn name = (!gone name && t.owns conn name) := by
  rw [Topology.owns, h.queues]
  cases gone name <;> rfl

/-- The queues of a connection are listed by name, each once. -/
theorem WellFormed.contains_ownedBy (h : t.WellFormed) (conn : ConnectionId) :
    (t.registry.ownedBy conn).contains = t.owns conn := by
  funext name
  rw [Bool.eq_iff_iff, List.contains_iff_mem, owns_iff, Registry.ownedBy, List.mem_map]
  constructor
  · rintro ⟨q, hq, rfl⟩
    obtain ⟨hlisted, howner⟩ := List.mem_filter.1 hq
    obtain ⟨name, hname⟩ := NameMap.mem_values.1 hlisted
    rw [(h.queue_filed name q hname).1]
    exact ⟨q, hname, by simpa using howner⟩
  · rintro ⟨q, hname, howner⟩
    refine ⟨q, List.mem_filter.2 ⟨NameMap.mem_values.2 ⟨name, hname⟩, by simpa using howner⟩, ?_⟩
    exact (h.queue_filed name q hname).1

theorem WellFormed.owns_of_mem_ownedBy (h : t.WellFormed) {conn : ConnectionId} {name : String}
    (hname : name ∈ t.registry.ownedBy conn) : t.owns conn name = true := by
  rwa [← h.contains_ownedBy, List.contains_iff_mem]

theorem WellFormed.nodup_ownedBy (h : t.WellFormed) (conn : ConnectionId) :
    (t.registry.ownedBy conn).Nodup := by
  have hnames : (t.registry.queueList.map fun q => q.definition.name).Nodup :=
    NameMap.nodup_values fun name q hq => (h.queue_filed name q hq).1
  exact hnames.sublist (List.filter_sublist.map _)

/-- Some queue belongs to a connection. -/
def HasOwner (t : Topology) (conn : ConnectionId) : Prop := ∃ name, t.owns conn name = true

theorem HasOwner.of_queues {conn : ConnectionId} (h : t'.HasOwner conn)
    (hqueues : ∀ name q, t'.registry.queue? name = some q → t.registry.queue? name = some q) :
    t.HasOwner conn := by
  obtain ⟨name, hname⟩ := h
  obtain ⟨q, hq, howner⟩ := owns_iff.1 hname
  exact ⟨name, owns_iff.2 ⟨q, hqueues name q hq, howner⟩⟩

/-- Nobody owns a queue that was recovered. -/
theorem not_hasOwner_restore {state : DurableState} (h : state.Closed) (nonce : UInt64)
    (conn : ConnectionId) : ¬ (restore nonce state).HasOwner conn := by
  rintro ⟨name, hname⟩
  obtain ⟨q, hq, howner⟩ := owns_iff.1 hname
  have hrestored : state.queues[name]?.map (fun d => ({ definition := d } : Queue)) =
      some q.unnumbered := by
    rw [← queue?_restore h name, hq]
    rfl
  obtain ⟨d, -, hd⟩ := Option.map_eq_some_iff.1 hrestored
  have hnone : q.owner = none := (congrArg Queue.owner hd).symm
  rw [hnone] at howner
  cases howner

end Topology

/-- Both halves of a broker's memory, after the queues of a set are removed. -/
structure LiveState.WithoutQueues (s' s : LiveState) (gone : String → Bool) : Prop where
  wellFormed : s'.topology.WellFormed
  topology : s'.topology.WithoutQueues s.topology gone
  pending : ∀ q, s'.mailboxes.pending q = if gone q = true then [] else s.mailboxes.pending q

namespace LiveState

variable {s s' s'' : LiveState} {gone gone' : String → Bool}

theorem WithoutQueues.refl (h : s.topology.WellFormed) : s.WithoutQueues s fun _ => false :=
  ⟨h, .refl s.topology, fun _ => rfl⟩

theorem WithoutQueues.trans (h : s'.WithoutQueues s gone) (h' : s''.WithoutQueues s' gone')
    (hwf : s.topology.WellFormed) : s''.WithoutQueues s fun q => gone q || gone' q := by
  refine ⟨h'.wellFormed, h.topology.trans h'.topology hwf h.wellFormed, ?_⟩
  intro q
  rw [h'.pending, h.pending]
  by_cases hfirst : gone q = true <;> by_cases hnext : gone' q = true <;> simp [hfirst, hnext]

/-- The owner of a queue that is removed keeps the others. -/
theorem WithoutQueues.owns_others {conn : ConnectionId} {name : String} {queues : List String}
    (h : s'.WithoutQueues s (· == name)) (hnew : name ∉ queues)
    (howned : ∀ other ∈ queues, s.topology.owns conn other = true) :
    ∀ other ∈ queues, s'.topology.owns conn other = true := by
  intro other hother
  have hne : (other == name) = false := by
    rw [beq_eq_false_iff_ne]
    exact fun heq => hnew (heq ▸ hother)
  rw [h.topology.owns, hne, howned other hother]
  rfl

/-- What is left when a queue is removed, and then others. -/
theorem WithoutQueues.cons {name : String} {queues : List String}
    (h : s'.WithoutQueues s (· == name)) (h' : s''.WithoutQueues s' queues.contains)
    (hwf : s.topology.WellFormed) : s''.WithoutQueues s (name :: queues).contains := by
  have hnames : (name :: queues).contains = fun q => q == name || queues.contains q :=
    funext fun q => List.contains_cons
  rw [hnames]
  exact h.trans h' hwf

/-- Nothing that is asked of a deletion keeps a connection from deleting a queue of its own. -/
theorem deleteQueue_of_owns (hwf : s.topology.WellFormed) {conn : ConnectionId} {name : String}
    (h : s.topology.owns conn name = true) :
    ∃ change, deleteQueue conn name false false s = .ok change ∧
      change.live.WithoutQueues s (· == name) := by
  obtain ⟨q, hq, howner⟩ := Topology.owns_iff.1 h
  have hfor : s.queueFor conn name = .ok q := by
    simp [queueFor, hq, Queue.accessibleBy, howner]
  have hd : deleteQueue conn name false false s = .ok
      (s.carryOut (Cascade.removingQueue s.topology name) (s.mailboxes.count name)) := by
    simp [deleteQueue, hfor]
    rfl
  obtain ⟨⟨hwf', htopology, hpending⟩, -⟩ := deleteQueue_without hwf hd
  refine ⟨_, hd, hwf', htopology.withoutQueues, ?_⟩
  intro other
  simp only [hpending, Removal.queue_eq_iff]

end LiveState

/-! ## §3. A connection that closes -/

namespace Connection

open Broker

variable {medium handle : Type} [Medium medium handle] {conn : ConnectionId}

/-- A queue is deleted on the connection that owns it, or its log has refused and it is as if
nothing had been asked. -/
theorem perform_deleteQueue_of_owns {name : String} {b : Broker handle} (m : medium)
    (hopen : b.isClosed = false) (hwf : b.live.topology.WellFormed)
    (howns : b.live.topology.owns conn name = true) :
    ∃ change, LiveState.deleteQueue conn name false false b.live = .ok change ∧
      change.live.WithoutQueues b.live (· == name) ∧
      ((∃ log log' cause m', b.log = some log ∧
          log.record change.ops m = (.error cause, log', m') ∧
          b.perform (LiveState.deleteQueue conn name false false) m =
            (.error (.journal cause), { b with log := some log' }, m')) ∨
        ∃ log log' m', b.log = some log ∧ log.record change.ops m = (.ok (), log', m') ∧
          b.perform (LiveState.deleteQueue conn name false false) m =
            (.ok change.answer, { b with live := change.live, log := some log' }, m')) := by
  obtain ⟨change, hchange, hwithout⟩ := LiveState.deleteQueue_of_owns hwf howns
  have hperformed := performed (LiveState.deleteQueue conn name false false) b m
  refine ⟨change, hchange, hwithout, ?_⟩
  generalize b.perform (LiveState.deleteQueue conn name false false) m = outcome at hperformed ⊢
  cases hperformed with
  | closed hclosed =>
    rw [isClosed, hclosed] at hopen
    cases hopen
  | refused _ hrefused =>
    rw [hchange] at hrefused
    cases hrefused
  | unrecorded hlog hdecided hrecord =>
    obtain rfl := Except.ok.inj (hchange.symm.trans hdecided)
    -- to delete a queue draws no name
    rw [LiveState.withNames_eq_self (LiveState.deleteQueue_without hwf hchange).1.topology.names]
    exact Or.inl ⟨_, _, _, _, hlog, hrecord, rfl⟩
  | recorded hlog hdecided hrecord =>
    obtain rfl := Except.ok.inj (hchange.symm.trans hdecided)
    exact Or.inr ⟨_, _, _, hlog, hrecord, rfl⟩

/-- The queues of a connection are deleted, all of them, unless the log refuses. -/
theorem deleteQueues_withoutQueues {queues : List String} {b : Broker handle} {m : medium}
    (hopen : b.isClosed = false) (hwf : b.live.topology.WellFormed) (hnodup : queues.Nodup)
    (howned : ∀ name ∈ queues, b.live.topology.owns conn name = true)
    (hlog : ∀ e, (deleteQueues conn b m queues).1 ≠ .error (.journal e)) :
    (deleteQueues conn b m queues).1 = .ok () ∧
      (deleteQueues conn b m queues).2.1.live.WithoutQueues b.live queues.contains := by
  induction queues generalizing b m with
  | nil => exact ⟨rfl, .refl hwf⟩
  | cons name queues ih =>
    obtain ⟨hnew, hnodup⟩ := List.nodup_cons.1 hnodup
    obtain ⟨hname, hothers⟩ := List.forall_mem_cons.1 howned
    obtain ⟨change, -, hwithout, ⟨_, _, cause, _, -, -, hperform⟩ | ⟨_, _, _, -, -, hperform⟩⟩ :=
      perform_deleteQueue_of_owns m hopen hwf hname
    · unfold deleteQueues at hlog
      rw [hperform] at hlog
      exact absurd rfl (hlog cause)
    · unfold deleteQueues at hlog ⊢
      rw [hperform] at hlog ⊢
      obtain ⟨hok, hrest⟩ :=
        ih rfl hwithout.wellFormed hnodup (hwithout.owns_others hnew hothers) hlog
      exact ⟨hok, hwithout.cons hrest hwf⟩

/-- What a connection releases that closes: all that it owns, whatever the order. -/
theorem release_withoutQueues {b : Broker handle} {m : medium} (hopen : b.isClosed = false)
    (hwf : b.live.topology.WellFormed)
    (hlog : ∀ e, (release conn b m).1 ≠ .error (.journal e)) :
    (release conn b m).1 = .ok () ∧
      (release conn b m).2.1.live.WithoutQueues b.live (b.live.topology.owns conn) := by
  unfold release at hlog ⊢
  rw [if_neg (by simp [hopen])] at hlog ⊢
  have hdeleted := deleteQueues_withoutQueues hopen hwf (hwf.nodup_ownedBy conn)
    (fun _ => hwf.owns_of_mem_ownedBy) hlog
  rwa [hwf.contains_ownedBy] at hdeleted

end Connection

/-! ## §4. Whom queues belong to -/

section

variable {matcher : Matcher} {conn owner : ConnectionId} {op : Operation} {s s' : LiveState}

/-- Only a declaration makes an owner, and only of the connection that it comes on. -/
theorem Operation.Effect.hasOwner (heffect : Operation.Effect matcher conn s op s')
    (h : s'.topology.HasOwner owner) :
    s.topology.HasOwner owner ∨ owner = conn ∧ ∃ d passive, op = .declareQueue d passive := by
  cases heffect with
  | same | names | exchange | published | fetched | purged | joined | nobodyLeft | left =>
    exact Or.inl h
  | binding =>
    refine Or.inl (h.of_queues fun name q hq => ?_)
    rwa [← (Topology.addBinding_rest s.topology _).1]
  | removed hr hs' =>
    refine Or.inl (h.of_queues fun name q hq => ?_)
    rw [hs'.topology.queues] at hq
    split at hq
    next => cases hq
    next => exact hq
  | @queue d d' passive g hg hname hnew =>
    obtain ⟨name, hname⟩ := h
    obtain ⟨q, hq, howner⟩ := Topology.owns_iff.1 hname
    replace hq := (Topology.queue?_addQueue _ _ _ _).symm.trans hq
    split at hq
    next =>
      injection hq with hq
      rw [← hq] at howner
      have howner : LiveState.ownerOf conn d' = some owner := howner
      rw [LiveState.ownerOf] at howner
      split at howner
      next =>
        injection howner with howner
        exact Or.inr ⟨howner.symm, d, passive, rfl⟩
      next => cases howner
    next => exact Or.inl ⟨name, Topology.owns_iff.2 ⟨q, hq, howner⟩⟩

end

namespace Broker

variable {medium handle : Type} [Medium medium handle] {b : Broker handle}
  {owners owners' : ConnectionId → Prop}

/-- A broker that is running, and whose exclusive queues belong to none but some. -/
structure OwnedBy (b : Broker handle) (owners : ConnectionId → Prop) : Prop where
  isOpen : b.isClosed = false
  wellFormed : b.live.topology.WellFormed
  owner : ∀ conn, b.live.topology.HasOwner conn → owners conn

theorem OwnedBy.mono (h : b.OwnedBy owners) (hmore : ∀ conn, owners conn → owners' conn) :
    b.OwnedBy owners' :=
  ⟨h.isOpen, h.wellFormed, fun conn hconn => hmore conn (h.owner conn hconn)⟩

/-- Whatever becomes of what has an effect of the list, only a declaration makes a new owner. -/
theorem OwnedBy.perform {α : Type} {d : Decision α} (h : b.OwnedBy owners) (hd : d.Stepwise)
    {matcher : Matcher} {conn : ConnectionId} {op : Operation}
    (heffect : ∀ change, d b.live = .ok change → op.Effect matcher conn b.live change.live)
    (hconn : (∃ d passive, op = .declareQueue d passive) → owners conn) (m : medium) :
    (b.perform d m).2.1.OwnedBy owners := by
  refine ⟨(perform_rest d b m).2.2.trans h.isOpen,
    (Call.perform hd b m).wellFormed h.wellFormed, ?_⟩
  refine perform_live (P := fun s => ∀ owner, s.topology.HasOwner owner → owners owner) h.owner
    (fun _ _ => h.owner) (fun change hchange owner howner => ?_) m
  rcases (heffect change hchange).hasOwner howner with hbefore | ⟨rfl, hdeclares⟩
  · exact h.owner owner hbefore
  · exact hconn hdeclares

theorem OwnedBy.run (h : b.OwnedBy owners) {conn : ConnectionId} (hconn : owners conn)
    (op : Operation) (m : medium) : (b.run conn op m).2.1.OwnedBy owners :=
  h.perform (op.stepwise b.settings.matcher conn)
    (fun _ hchange => Operation.effect h.wellFormed hchange) (fun _ => hconn) m

theorem OwnedBy.compact (h : b.OwnedBy owners) (m : medium) :
    (b.compact m).2.1.OwnedBy owners := by
  refine ⟨(b.compact_isClosed m).trans h.isOpen, ?_, ?_⟩
  · rw [b.compact_live m]
    exact h.wellFormed
  · rw [b.compact_live m]
    exact h.owner

/-- On its errands a connection declares nothing. -/
theorem OwnedBy.errand {before after : Broker handle × medium} (h : before.1.OwnedBy owners)
    (herrand : Errand before after) : after.1.OwnedBy owners := by
  cases herrand with
  | join conn queue b m =>
    exact h.perform (LiveState.attachConsumer_stepwise conn queue)
      (fun _ hchange => LiveState.attachConsumer_effect b.settings.matcher hchange) (by simp) m
  | leave queue incarnation b m =>
    exact h.perform (LiveState.detachConsumer_stepwise queue (some incarnation))
      (fun _ hchange => (LiveState.detachConsumer_effect b.settings.matcher .admin h.wellFormed
        hchange).2) (by simp) m
  | release conn queue b m =>
    exact h.perform (LiveState.deleteQueue_stepwise conn queue false false)
      (fun _ hchange => LiveState.deleteQueue_effect b.settings.matcher h.wellFormed hchange)
      (by simp) m

theorem OwnedBy.errands {before after : Broker handle × medium} (h : before.1.OwnedBy owners)
    (herrands : Errands before after) : after.1.OwnedBy owners := by
  induction herrands with
  | refl => exact h
  | tail _ hlast ih => exact ih.errand hlast

end Broker

/-- A connection that closes leaves no queue behind, unless the log refuses. -/
theorem Connection.close_owned {medium handle : Type} [Medium medium handle] {c : Connection}
    {b : Broker handle} {m : medium} {owners : ConnectionId → Prop} (h : b.OwnedBy owners)
    (hlog : ∀ e, (c.close b m).1 ≠ .error (.journal e)) :
    (c.close b m).1 = .ok () ∧
      (c.close b m).2.1.live.WithoutQueues (closeChannels c b m c.channels.keys).2.1.live
        ((closeChannels c b m c.channels.keys).2.1.live.topology.owns c.id) ∧
      (c.close b m).2.1.OwnedBy fun owner => owners owner ∧ owner ≠ c.id := by
  have hchannels := h.errands (c.closeChannels_errands b m c.channels.keys)
  have hclosed := h.errands (c.close_errands b m)
  rw [close_eq] at hlog hclosed ⊢
  obtain ⟨hok, hwithout⟩ := release_withoutQueues hchannels.isOpen hchannels.wellFormed hlog
  refine ⟨hok, hwithout, hclosed.isOpen, hclosed.wellFormed, ?_⟩
  intro owner howner
  refine ⟨hclosed.owner owner howner, ?_⟩
  rintro rfl
  obtain ⟨name, hname⟩ := howner
  rw [hwithout.topology.owns] at hname
  simp at hname

/-! ## §5. Requests -/

namespace Server

open Broker Connection

variable {medium handle : Type} [Medium medium handle] {s : Server handle}

/-- Those who may own a queue: the administrative context, and the connections that are open. -/
def MayOwn (s : Server handle) (owner : ConnectionId) : Prop :=
  owner = .admin ∨ (s.connection? owner).isSome = true

omit [Medium medium handle] in
/-- Nobody loses a connection by what becomes of one that is kept. -/
theorem MayOwn.keep {owner : ConnectionId} (h : s.MayOwn owner) (c : Connection)
    (b : Broker handle) : (s.keep c b).MayOwn owner := by
  refine h.imp_right fun hopen => ?_
  rw [connection?, Server.keep, ByNumber.getElem?_insert]
  split
  next => rfl
  next => exact hopen

theorem serve_closeConnection {conn : ConnectionId} {c : Connection}
    (hc : s.connection? conn = some c) (m : medium) :
    s.serve m (.closeConnection conn) =
      ((c.close s.broker m).1.map fun _ => .done,
        { broker := (c.close s.broker m).2.1, connections := s.connections.erase conn.number },
        (c.close s.broker m).2.2) := by
  simp only [serve, onConnection, hc]

/-- A request that the log does not refuse keeps owners open, unless it shuts the broker down. -/
theorem Orderly.serve_owned (horderly : s.Orderly) (h : s.broker.OwnedBy s.MayOwn) {m : medium}
    {q : Request} (hq : q ≠ .shutdown) (hlog : ∀ e, (s.serve m q).1 ≠ .error (.journal e)) :
    (s.serve m q).2.1.broker.OwnedBy (s.serve m q).2.1.MayOwn := by
  -- what is to be shown of the outcome, whichever it is
  let P : Outcome (Server handle × medium) Refusal Reply → Prop :=
    fun o => o.2.1.broker.OwnedBy o.2.1.MayOwn
  have hsame : P (.ok .absent, s, m) := h
  have hkeep : ∀ (c : Connection) {b : Broker handle}, b.OwnedBy s.MayOwn →
      (s.keep c b).broker.OwnedBy (s.keep c b).MayOwn :=
    fun c b hb => OwnedBy.mono hb fun _ howner => howner.keep c b
  cases q with
  | operation op => exact h.run (Or.inl rfl) op m
  | compact => exact h.compact m
  | shutdown => exact absurd rfl hq
  | connect => exact hkeep _ ⟨h.isOpen, h.wellFormed, h.owner⟩
  | openChannel conn => exact onConnection_outcome (P := P) hsame fun c _ => hkeep _ h
  | closeConnection conn =>
    cases hc : s.connection? conn with
    | none =>
      rw [serve_of_no_connection rfl hc m]
      exact h
    | some c =>
      rw [serve_closeConnection hc] at hlog ⊢
      have hclosed := (c.close_owned h fun e he => hlog e (by rw [he]; rfl)).2.2
      rw [horderly.connection? hc] at hclosed
      refine OwnedBy.mono hclosed fun owner howner => howner.1.imp_right fun hopen => ?_
      have hne : conn.number ≠ owner.number := fun hnumber => howner.2 (by
        cases owner; cases conn; exact congrArg _ hnumber.symm)
      show ((s.connections.erase conn.number)[owner.number]?).isSome = true
      rw [Std.ExtTreeMap.getElem?_erase, if_neg (by simpa using hne)]
      exact hopen
  | onChannel conn channel op =>
    refine onChannel_outcome (P := P) hsame fun c hc _ => hkeep c (h.run (Or.inr ?_) op m)
    rw [hc]
    rfl
  | consume conn channel queue =>
    exact onChannel_outcome (P := P) hsame fun c _ _ =>
      hkeep _ (h.errands (c.consume_errands channel queue s.broker m))
  | cancel conn channel tag =>
    exact onChannel_outcome (P := P) hsame fun c _ _ =>
      hkeep _ (h.errands (c.cancel_errands channel tag s.broker m))
  | closeChannel conn channel =>
    exact onChannel_outcome (P := P) hsame fun c _ _ =>
      hkeep _ (h.errands (c.closeChannel_errands channel s.broker m))

/-! ## §6. Runs -/

/-- A server that was opened, on whatever log, and asked for this and that since, on whatever
medium.  It was not shut down, and nothing was answered but what the log did not refuse. -/
inductive Unrefused (medium : Type) {handle : Type} [Medium medium handle] : Server handle → Prop
  | opened {settings : BrokerSettings} {nonce : UInt64} {mailboxes : Mailboxes} {m : medium}
      {b : Broker handle} (hopen : (openOn settings nonce mailboxes m).1 = .ok b) :
      Unrefused medium { broker := b }
  | served {s : Server handle} (hs : Unrefused medium s) (m : medium) (q : Request)
      (hq : q ≠ .shutdown) (hlog : ∀ e, (s.serve m q).1 ≠ .error (.journal e)) :
      Unrefused medium (s.serve m q).2.1
  | mailed {s : Server handle} (hs : Unrefused medium s) (mailboxes : Mailboxes) :
      Unrefused medium { s with broker := s.broker.withMailboxes mailboxes }

theorem Unrefused.owned {s : Server handle} (hs : Unrefused medium s) :
    s.Orderly ∧ s.broker.OwnedBy s.MayOwn := by
  induction hs with
  | opened hopen =>
    obtain ⟨log, entries, hstate, rfl⟩ := openOn_log hopen
    have hclosed : log.journal.state.Closed := hstate ▸ DurableState.closed_ofEntries entries
    refine ⟨lasting_orderly.opened hopen, rfl, openOn_wellFormed hopen, ?_⟩
    intro owner howner
    exact absurd howner (Topology.not_hasOwner_restore hclosed _ owner)
  | served _ m q hq hlog ih => exact ⟨ih.1.serve m q, ih.1.serve_owned ih.2 hq hlog⟩
  | mailed _ mailboxes ih =>
    have hlasting : Lasting medium (Orderly : Server handle → Prop) := lasting_orderly
    exact ⟨hlasting.mailed ih.1 mailboxes, ih.2.isOpen, ih.2.wellFormed, ih.2.owner⟩

/-- At every point of such a run every exclusive queue belongs to the administrative context or to
a connection that is open.  A connection that closes then is gone, and with it go exactly the
queues that it owns once its channels are closed, their bindings and messages, and the auto-delete
exchanges that were bound to these queues and to no other. -/
theorem Unrefused.owned_until_closed {s : Server handle} (hs : Unrefused medium s) :
    (∀ name q, s.broker.live.topology.registry.queue? name = some q →
      q.definition.exclusive = true → ∃ owner, q.owner = some owner ∧
        (owner = .admin ∨ (s.connection? owner).isSome = true)) ∧
    ∀ (m : medium) conn c, s.connection? conn = some c →
      (∀ e, (s.serve m (.closeConnection conn)).1 ≠ .error (.journal e)) →
      (s.serve m (.closeConnection conn)).1 = .ok .done ∧
        (s.serve m (.closeConnection conn)).2.1.connection? conn = none ∧
        (s.serve m (.closeConnection conn)).2.1.broker.live.WithoutQueues
          (closeChannels c s.broker m c.channels.keys).2.1.live
          ((closeChannels c s.broker m c.channels.keys).2.1.live.topology.owns conn) := by
  obtain ⟨horderly, howned⟩ := hs.owned
  refine ⟨?_, ?_⟩
  · intro name q hq hexclusive
    obtain ⟨owner, howner⟩ := Option.isSome_iff_exists.1
      ((howned.wellFormed.owned_iff_exclusive name q hq).2 hexclusive)
    exact ⟨owner, howner, howned.owner owner ⟨name, Topology.owns_iff.2 ⟨q, hq, howner⟩⟩⟩
  · intro m conn c hc hlog
    rw [serve_closeConnection hc] at hlog ⊢
    obtain ⟨hok, hwithout, -⟩ := c.close_owned howned fun e he => hlog e (by rw [he]; rfl)
    rw [horderly.connection? hc] at hwithout
    refine ⟨by rw [hok]; rfl, ?_, hwithout⟩
    rw [connection?]
    simp

/-- Whether requests, one after the other, are all carried out. -/
def carriesOut (s : Server handle) (m : medium) : List Request → Bool
  | [] => true
  | q :: requests =>
    (s.serve m q).1.isOk && (s.serve m q).2.1.carriesOut (s.serve m q).2.2 requests

omit [Medium medium handle] in
theorem ne_journal_of_isOk {outcome : Except Refusal Reply} (hok : outcome.isOk = true)
    (e : JournalError) : outcome ≠ .error (.journal e) := by
  rintro rfl
  cases hok

/-- What is carried out was not refused. -/
theorem Unrefused.serveAll {s : Server handle} (hs : Unrefused medium s) (m : medium)
    (requests : List Request) (hrequests : ∀ q ∈ requests, q ≠ .shutdown)
    (hok : s.carriesOut m requests = true) : Unrefused medium (s.serveAll m requests).1 := by
  induction requests generalizing s m with
  | nil => exact hs
  | cons q requests ih =>
    obtain ⟨hq, hothers⟩ := List.forall_mem_cons.1 hrequests
    obtain ⟨hfirst, hrest⟩ := Bool.and_eq_true_iff.1 hok
    exact ih (hs.served m q hq (ne_journal_of_isOk hfirst)) _ hothers hrest

/-- Two connections with queues of their own.  Those of the first are all that is bound to one
auto-delete exchange, and one of them shares another with the queue of the second.  A consumer on
the first is the last of a queue that nobody owns. -/
theorem Unrefused.owned_until_closed_of_two_connections :
    ∃ (s : Server Unit) (c : Connection), Unrefused MemoryLog s ∧ s.connection? ⟨1⟩ = some c ∧
      (s.serve ({} : MemoryLog) (.closeConnection ⟨1⟩)).1 = .ok .done ∧
      (s.serve ({} : MemoryLog) (.closeConnection ⟨1⟩)).2.1.broker.live.WithoutQueues
        (closeChannels c s.broker ({} : MemoryLog) c.channels.keys).2.1.live
        ((closeChannels c s.broker ({} : MemoryLog) c.channels.keys).2.1.live.topology.owns ⟨1⟩) ∧
      ((s.serve ({} : MemoryLog)
        (.closeConnection ⟨1⟩)).2.1.broker.live.topology.registry.queueList.map
          fun q => q.definition.name) = ["c"] := by
  have hopen : (openOn {} 1 .empty ({} : MemoryLog)).1 = .ok _ := rfl
  obtain ⟨s, hs, hc, hok, hleft⟩ : ∃ s : Server Unit, Unrefused MemoryLog s ∧
      (s.connection? ⟨1⟩).isSome = true ∧
      (s.serve ({} : MemoryLog) (.closeConnection ⟨1⟩)).1.isOk = true ∧
      ((s.serve ({} : MemoryLog)
        (.closeConnection ⟨1⟩)).2.1.broker.live.topology.registry.queueList.map
          fun q => q.definition.name) = ["c"] := by
    refine ⟨_, (Unrefused.opened hopen).serveAll {}
      [.operation (.declareExchange ⟨"x", .topic, false, true⟩ false),
        .operation (.declareExchange ⟨"y", .topic, false, true⟩ false),
        .operation (.declareQueue ⟨"d", true, false, true⟩ false), .connect, .connect,
        .openChannel ⟨1⟩, .openChannel ⟨2⟩,
        .onChannel ⟨1⟩ 1 (.declareQueue ⟨"a", false, true, false⟩ false),
        .onChannel ⟨1⟩ 1 (.declareQueue ⟨"b", false, true, false⟩ false),
        .onChannel ⟨2⟩ 1 (.declareQueue ⟨"c", false, true, false⟩ false),
        .onChannel ⟨1⟩ 1 (.bind ⟨"a", "x", ""⟩), .onChannel ⟨1⟩ 1 (.bind ⟨"b", "x", ""⟩),
        .onChannel ⟨2⟩ 1 (.bind ⟨"c", "y", ""⟩), .onChannel ⟨1⟩ 1 (.bind ⟨"a", "y", ""⟩),
        .consume ⟨1⟩ 1 "d"] (by decide) (by decide +kernel), ?_, ?_, ?_⟩ <;> decide +kernel
  obtain ⟨c, hc⟩ := Option.isSome_iff_exists.1 hc
  obtain ⟨hreply, -, hwithout⟩ := hs.owned_until_closed.2 ({} : MemoryLog) ⟨1⟩ c hc
    (ne_journal_of_isOk hok)
  exact ⟨s, c, hs, hc, hreply, hwithout, hleft⟩

end Server

end BrokerTopology
