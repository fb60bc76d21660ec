/-
  BrokerTopology.Proofs.ExactRemoval — a removal takes exactly what it
  has to.

  An unbinding, a deletion and the last consumer leaving an auto-delete
  queue are all the removal of one thing.  `Without` says what is to be
  left of a topology: the thing itself is gone, the bindings that it
  covers are gone, and so are the auto-delete exchanges that it strands,
  whose bindings were all among those; everything else is as it was.

  What is carried out is a list of removals, each of which sweeps the
  bindings it still finds.  The exchanges at its end sweep nothing: a
  binding that the first removal leaves keeps its exchange from being
  stranded.

  Main statements:
    * `Cascade.Plans.without` — a planned cascade, carried out.
    * `Operation.removal_exact` — every removal that succeeds, in every
      run.
-/
import BrokerTopology.Proofs.HostRuns

namespace BrokerTopology

namespace Topology

/-! ## §1. What is left -/

/-- The first topology is left of the second when something is removed from it. -/
structure Without (t' t : Topology) (r : Removal) : Prop where
  /-- Gone is what is removed, and every auto-delete exchange that it strands. -/
  exchanges : ∀ x, t'.registry.exchange? x =
    if r = .exchange x ∨ t.strands r x = true then none else t.registry.exchange? x
  queues : ∀ q, t'.registry.queue? q = if r = .queue q then none else t.registry.queue? q
  bindings : ∀ b, b ∈ t'.bindings ↔ b ∈ t.bindings ∧ r.covers b = false
  bindings_counted : ∀ x, t'.references.bindingsOf x =
    (t.bindings.ofExchange x).countP fun b => !r.covers b
  consumers : ∀ q, t'.references.consumersOf q =
    if r = .queue q then 0 else t.references.consumersOf q
  names : t'.registry.names = t.registry.names
  lastIncarnation : t'.registry.lastIncarnation = t.registry.lastIncarnation

/-! ## §2. Exchanges one after the other -/

theorem exchange?_foldl_remove {t : Topology} {gone : List String} {x : String} :
    ((gone.map Removal.exchange).foldl remove t).registry.exchange? x =
      if x ∈ gone then none else t.registry.exchange? x := by
  induction gone generalizing t with
  | nil => simp
  | cons y gone ih =>
    rw [List.map_cons, List.foldl_cons, ih, exchange?_remove]
    by_cases hx : x ∈ gone
    · simp [hx]
    · by_cases hy : y = x
      · simp [hy]
      · simp [hx, hy, Ne.symm hy]

theorem mem_foldl_remove {t : Topology} {gone : List String} {b : Binding} :
    b ∈ ((gone.map Removal.exchange).foldl remove t).bindings ↔
      b ∈ t.bindings ∧ ¬ b.exchange ∈ gone := by
  induction gone generalizing t with
  | nil => simp
  | cons y gone ih =>
    rw [List.map_cons, List.foldl_cons, ih,
      show (t.remove (.exchange y)).bindings = (t.bindings.removeExchange y).2 from rfl,
      BindingTable.mem_removeExchange, List.mem_cons]
    tauto

/-- Nothing but exchanges and their bindings goes with them. -/
theorem foldl_remove_rest (t : Topology) (gone : List String) :
    ((gone.map Removal.exchange).foldl remove t).registry.queues = t.registry.queues ∧
      ((gone.map Removal.exchange).foldl remove t).references.consumers =
        t.references.consumers ∧
      ((gone.map Removal.exchange).foldl remove t).registry.names = t.registry.names ∧
      ((gone.map Removal.exchange).foldl remove t).registry.lastIncarnation =
        t.registry.lastIncarnation := by
  induction gone generalizing t with
  | nil => exact ⟨rfl, rfl, rfl, rfl⟩
  | cons y gone ih => exact ih (t.remove (.exchange y))

end Topology

namespace Cascade

open BrokerTopology.Topology

/-! ## §3. A planned cascade, carried out -/

theorem Plans.without {t : Topology} {r : Removal} {c : Cascade} (hc : Plans t r c)
    (h : t.WellFormed) (hr : t.Removable r) :
    (c.removals.foldl Topology.remove t).Without t r := by
  have hwf : (c.removals.foldl Topology.remove t).WellFormed :=
    (hc.steps h hr t.references).wellFormed h
  obtain ⟨gone, -, hgone, hremovals⟩ := hc.removals_eq
  rw [hremovals, List.foldl_cons] at hwf ⊢
  obtain ⟨hqueues, hconsumers, hnames, hincarnation⟩ := foldl_remove_rest (t.remove r) gone
  -- what the first removal leaves keeps its exchange
  have hbindings : ∀ b, b ∈ ((gone.map Removal.exchange).foldl Topology.remove
      (t.remove r)).bindings ↔ b ∈ t.bindings ∧ r.covers b = false := by
    intro b
    rw [mem_foldl_remove, mem_remove h]
    refine ⟨And.left, fun hb => ⟨hb, ?_⟩⟩
    intro hx
    have hcovered := (h.strands_iff.1 ((hgone _).1 hx).1).2.2 b hb.1 rfl
    rw [hb.2] at hcovered
    cases hcovered
  refine ⟨?_, ?_, hbindings, ?_, ?_, ?_, ?_⟩
  · intro x
    rw [exchange?_foldl_remove, exchange?_remove]
    by_cases hx : r = .exchange x
    · simp [hx]
    · simp [hx, hgone]
  · intro q
    rw [Registry.queue?, hqueues, ← Registry.queue?, queue?_remove]
  · intro x
    have hleft := BindingTable.perm_of_lost (t.bindings.nodup_ofExchange x)
      (BindingTable.nodup_ofExchange _ x) (h.table.mem_ofExchange_of_lost hwf.table hbindings x)
    rw [hwf.bindings_counted, hleft.length_eq, List.countP_eq_length_filter]
  · intro q
    rw [ReferenceCounts.consumersOf, hconsumers, ← ReferenceCounts.consumersOf, consumersOf_remove]
  · rw [hnames, counters_remove.1]
  · rw [hincarnation, counters_remove.2]

/-- The messages of a queue go with it, and no others do. -/
theorem Plans.pending {t : Topology} {r : Removal} {c : Cascade} (hc : Plans t r c)
    (mailboxes : Mailboxes) (q : String) :
    (c.removals.foldl Mailboxes.remove mailboxes).pending q =
      if r = .queue q then [] else mailboxes.pending q := by
  obtain ⟨gone, -, -, hremovals⟩ := hc.removals_eq
  have hexchanges : ∀ (gone : List String) (m : Mailboxes),
      (gone.map Removal.exchange).foldl Mailboxes.remove m = m := by
    intro gone
    induction gone with
    | nil => intro m; rfl
    | cons x gone ih => intro m; exact ih m
  rw [hremovals, List.foldl_cons, hexchanges]
  cases r with
  | binding b => rfl
  | queue name =>
    show (mailboxes.clear name).pending q = _
    rw [Mailboxes.pending_clear]
    simp
  | exchange name => rfl

end Cascade

/-! ## §4. The operations that remove something -/

namespace LiveState

open BrokerTopology.Topology Cascade

/-- Both halves of a broker's memory, after something is removed. -/
structure Without (s' s : LiveState) (r : Removal) : Prop where
  wellFormed : s'.topology.WellFormed
  topology : s'.topology.Without s.topology r
  pending : ∀ q, s'.mailboxes.pending q = if r = .queue q then [] else s.mailboxes.pending q

variable {s : LiveState}

theorem carryOut_without {α : Type} (h : s.topology.WellFormed) {r : Removal} {c : Cascade}
    (hc : Plans s.topology r c) (hr : s.topology.Removable r) (answer : α) :
    (s.carryOut c answer).live.Without s r where
  wellFormed := (hc.steps h hr s.topology.references).wellFormed h
  topology := hc.without h hr
  pending := hc.pending s.mailboxes

theorem unbind_without (h : s.topology.WellFormed) {conn : ConnectionId} {b : Binding}
    {change : Change Unit} (hd : unbind conn b s = .ok change) :
    change.live.Without s (.binding b) := by
  obtain ⟨hb, rfl⟩ := unbind_ok hd
  exact carryOut_without h (plans_removingBinding h hb) hb ()

theorem deleteQueue_without (h : s.topology.WellFormed) {conn : ConnectionId} {name : String}
    {ifUnused ifEmpty : Bool} {change : Change Nat}
    (hd : deleteQueue conn name ifUnused ifEmpty s = .ok change) :
    change.live.Without s (.queue name) ∧ change.answer = (s.mailboxes.pending name).length := by
  obtain ⟨hq, rfl⟩ := deleteQueue_ok hd
  exact ⟨carryOut_without h (plans_removingQueue h hq) hq _, rfl⟩

theorem deleteExchange_without (h : s.topology.WellFormed) {name : String} {ifUnused : Bool}
    {change : Change Unit} (hd : deleteExchange name ifUnused s = .ok change) :
    change.live.Without s (.exchange name) := by
  obtain ⟨hx, rfl⟩ := deleteExchange_ok hd
  exact carryOut_without h (plans_removingExchange h hx) hx ()

/-- The last consumer of an auto-delete queue.  The cascade is planned while the consumer is still
counted, and carried out when it is not. -/
theorem detachConsumer_without (h : s.topology.WellFormed) {name : String}
    {incarnation : Option Nat} {change : Change Nat}
    (hlast : s.topology.references.consumersOf name = 1)
    (hauto : (s.topology.registry.queue? name).any (fun q => q.definition.autoDelete) = true)
    (hd : detachConsumer name incarnation s = .ok change) :
    change.live.Without s (.queue name) := by
  obtain ⟨hname, references, hremoved, rfl⟩ := detachConsumer_last hlast hauto hd
  have hplans := plans_removingQueue h hname
  -- the plan does not look at consumers, so it is one for what is left without this one
  have hdetached : Plans { s.topology with references } (.queue name)
      (removingQueue s.topology name) :=
    ⟨hplans.removals_eq, hplans.ops_eq, hplans.missing_eq⟩
  obtain ⟨hwf, hwithout, hpending⟩ :=
    carryOut_without (s := s.withTopology { s.topology with references }) (h.detach hremoved)
      hdetached hname 0
  refine ⟨hwf, ⟨hwithout.exchanges, hwithout.queues, hwithout.bindings,
    hwithout.bindings_counted, ?_, hwithout.names, hwithout.lastIncarnation⟩, hpending⟩
  intro other
  obtain ⟨-, hothers, -⟩ := ReferenceCounts.consumersOf_consumerRemoved? hremoved other
  rw [hwithout.consumers]
  split
  next => rfl
  next hne =>
    have hne : name ≠ other := fun heq => hne (by rw [heq])
    exact hothers.trans (if_neg hne)

end LiveState

namespace Operation

/-- What an operation is to remove from a topology, if it is a removal. -/
def removal? (t : Topology) : Operation → Option Removal
  | unbind b => some (.binding b)
  | deleteQueue name .. => some (.queue name)
  | deleteExchange name _ => some (.exchange name)
  | detachConsumer name =>
    -- an auto-delete queue goes with its last consumer
    if t.references.consumersOf name = 1 &&
        (t.registry.queue? name).any (fun q => q.definition.autoDelete) then
      some (.queue name)
    else none
  | _ => none

theorem last_of_removal? {t : Topology} {name : String} {r : Removal}
    (h : (detachConsumer name).removal? t = some r) :
    t.references.consumersOf name = 1 ∧
      (t.registry.queue? name).any (fun q => q.definition.autoDelete) = true ∧
      r = .queue name := by
  obtain ⟨hlast, hr⟩ := Option.ite_none_right_eq_some.1 h
  obtain ⟨hcount, hauto⟩ := Bool.and_eq_true_iff.1 hlast
  injection hr with hr
  exact ⟨of_decide_eq_true hcount, hauto, hr.symm⟩

/-- A removal that is decided comes to exactly what it has to, and the deletion of a queue
answers how many messages go with it. -/
theorem decide_without {matcher : Matcher} {conn : ConnectionId} {op : Operation} {s : LiveState}
    {r : Removal} {change : Change Answer} (h : s.topology.WellFormed)
    (hr : op.removal? s.topology = some r) (hd : op.decide matcher conn s = .ok change) :
    change.live.Without s r ∧ ∀ name ifUnused ifEmpty, op = deleteQueue name ifUnused ifEmpty →
      change.answer = .count (s.mailboxes.pending name).length := by
  cases op with
  | unbind b =>
    injection hr with hr
    obtain ⟨inner, hinner, rfl⟩ := ok_of_map hd
    exact ⟨hr ▸ LiveState.unbind_without h hinner, fun _ _ _ hop => by cases hop⟩
  | deleteQueue name ifUnused ifEmpty =>
    injection hr with hr
    obtain ⟨inner, hinner, rfl⟩ := ok_of_map hd
    obtain ⟨hwithout, hanswer⟩ := LiveState.deleteQueue_without h hinner
    refine ⟨hr ▸ hwithout, ?_⟩
    rintro name' _ _ hop
    injection hop with hname
    rw [← hname, ← hanswer]
  | deleteExchange name ifUnused =>
    injection hr with hr
    obtain ⟨inner, hinner, rfl⟩ := ok_of_map hd
    exact ⟨hr ▸ LiveState.deleteExchange_without h hinner, fun _ _ _ hop => by cases hop⟩
  | detachConsumer name =>
    obtain ⟨hlast, hauto, rfl⟩ := last_of_removal? hr
    obtain ⟨inner, hinner, rfl⟩ := ok_of_map hd
    exact ⟨LiveState.detachConsumer_without h hlast hauto hinner, fun _ _ _ hop => by cases hop⟩
  | _ => cases hr

/-- In every run, whenever a removal succeeds — an unbinding, a deletion, or the last consumer
leaving an auto-delete queue, also one that leaves no other queue than it joined: what it removes
is gone, with the bindings that it covers and the auto-delete exchanges that had bindings among
those and no other; the consumers and messages of a removed queue are dropped; and everything
else is as it was.  The deletion of a queue answers how many messages waited in it. -/
theorem removal_exact {medium handle : Type} [Medium medium handle] (settings : BrokerSettings)
    (nonce : UInt64) (shared : Option Mailboxes) (first : medium)
    (events : List (Host.Event medium)) {number : Nat} {s : Server handle}
    (hs : ((Host.fresh settings nonce shared first).afterAll events).server? number = some s)
    (m : medium) :
    (∀ conn op r a, op.removal? s.broker.live.topology = some r →
      (s.broker.run conn op m).1 = .ok a →
        (s.broker.run conn op m).2.1.live.Without s.broker.live r ∧
          ∀ name ifUnused ifEmpty, op = deleteQueue name ifUnused ifEmpty →
            a = .count (s.broker.live.mailboxes.pending name).length) ∧
      ∀ name incarnation a,
        (detachConsumer name).removal? s.broker.live.topology = some (.queue name) →
        (s.broker.perform (LiveState.detachConsumer name incarnation) m).1 = .ok a →
          (s.broker.perform (LiveState.detachConsumer name incarnation) m).2.1.live.Without
            s.broker.live (.queue name) := by
  have h := ((Host.sound_fresh settings nonce shared first).afterAll events).server? hs
  constructor
  · intro conn op r a hr hok
    obtain ⟨change, hchange, rfl, hlive⟩ := Broker.ok_of_perform hok
    rw [Broker.run, hlive]
    exact decide_without h hr hchange
  · intro name incarnation a hr hok
    obtain ⟨hlast, hauto, -⟩ := last_of_removal? hr
    obtain ⟨change, hchange, -, hlive⟩ := Broker.ok_of_perform hok
    rw [hlive]
    exact LiveState.detachConsumer_without h hlast hauto hchange

/-- The last consumer of a queue that is bound twice to one auto-delete exchange, and to another
one that a second queue is bound to as well. -/
theorem removal_exact_of_last_consumer :
    ∃ s a, ((Host.fresh {} 1 none ({} : MemoryLog)).afterAll
        [.start, .ask 0 (.operation (.declareExchange ⟨"x", .topic, true, true⟩ false)),
          .ask 0 (.operation (.declareExchange ⟨"y", .fanout, false, true⟩ false)),
          .ask 0 (.operation (.declareQueue ⟨"p", false, false, false⟩ false)),
          .ask 0 (.operation (.declareQueue ⟨"q", true, false, true⟩ false)),
          .ask 0 (.operation (.bind ⟨"q", "x", "a"⟩)), .ask 0 (.operation (.bind ⟨"q", "x", "b"⟩)),
          .ask 0 (.operation (.bind ⟨"p", "y", ""⟩)), .ask 0 (.operation (.bind ⟨"q", "y", ""⟩)),
          .ask 0 (.operation (.attachConsumer "q"))]).server? 0 = some s ∧
      (s.broker.run .admin (.detachConsumer "q") ({} : MemoryLog)).1 = .ok a ∧
      (s.broker.run .admin (.detachConsumer "q") ({} : MemoryLog)).2.1.live.Without s.broker.live
        (.queue "q") := by
  obtain ⟨s, hs, hr, hsucceeds⟩ : ∃ s, ((Host.fresh {} 1 none ({} : MemoryLog)).afterAll
      [.start, .ask 0 (.operation (.declareExchange ⟨"x", .topic, true, true⟩ false)),
        .ask 0 (.operation (.declareExchange ⟨"y", .fanout, false, true⟩ false)),
        .ask 0 (.operation (.declareQueue ⟨"p", false, false, false⟩ false)),
        .ask 0 (.operation (.declareQueue ⟨"q", true, false, true⟩ false)),
        .ask 0 (.operation (.bind ⟨"q", "x", "a"⟩)), .ask 0 (.operation (.bind ⟨"q", "x", "b"⟩)),
        .ask 0 (.operation (.bind ⟨"p", "y", ""⟩)), .ask 0 (.operation (.bind ⟨"q", "y", ""⟩)),
        .ask 0 (.operation (.attachConsumer "q"))]).server? 0 = some s ∧
      (detachConsumer "q").removal? s.broker.live.topology = some (.queue "q") ∧
      (s.broker.run .admin (.detachConsumer "q") ({} : MemoryLog)).1.isOk = true :=
    ⟨_, (Option.some_get (by decide +kernel)).symm, by decide +kernel, by decide +kernel⟩
  cases hok : (s.broker.run .admin (.detachConsumer "q") ({} : MemoryLog)).1 with
  | error e =>
    rw [hok] at hsucceeds
    cases hsucceeds
  | ok a => exact ⟨s, a, hs, hok, ((removal_exact _ _ _ _ _ hs _).1 .admin _ _ a hr hok).1⟩

end Operation

end BrokerTopology
